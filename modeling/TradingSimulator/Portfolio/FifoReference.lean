import TradingSimulator.Library.LotIntervals
import TradingSimulator.Portfolio.Reconciliation

/-!
# First-in-first-out matching and its reference

`calculate_realized_pnl` keeps a queue of lots for every symbol and consumes it in place. The
reference has no queue: purchases and sales of a symbol are intervals of its cumulative quantity,
and a sale gains over a purchase on the length of their overlap (`Lot.matchedGain`).

The loop treats the symbols independently (`replayTrades_openLots`, `calculateRealizedPnl_eq_sum`).
For one symbol `replay_subHistory` is the invariant: after sales of `u` units in total, the queue is
what dropping the first `u` units leaves of the purchases.
-/

namespace TradingSimulator

/-! ### One symbol of a trade log -/

/-- The trades of one symbol, in the order of the log. -/
def subHistory (trades : List (Trade ℚ)) (symbol : String) : List (Trade ℚ) :=
  trades.filter fun trade => trade.symbol = symbol

/-- The lots that the trades of `symbol` with `action` have moved, oldest first. -/
def lotsOf (action : String) (trades : List (Trade ℚ)) (symbol : String) : List (Lot ℚ) :=
  ((subHistory trades symbol).filter fun trade => trade.action = action).map Trade.lot

/-- The quantity of `symbol` that is open after the trades: bought less sold. -/
def openQuantity (trades : List (Trade ℚ)) (symbol : String) : ℚ :=
  Lot.totalUnits (lotsOf "BUY" trades symbol) - Lot.totalUnits (lotsOf "SELL" trades symbol)

/-- The realized P&L of `symbol` by overlaps of cumulative quantities. -/
def fifoReference (trades : List (Trade ℚ)) (symbol : String) : ℚ :=
  Lot.matchedGain (lotsOf "BUY" trades symbol) (lotsOf "SELL" trades symbol)

/-- A log of non-negative quantities at multiples of 0.0001 in which no sale exceeds the quantity
that is open before it. -/
structure CoveredHistory (trades : List (Trade ℚ)) : Prop where
  quantity_nonneg : ∀ trade ∈ trades, 0 ≤ trade.quantity
  onGrid : ∀ trade ∈ trades, OnGrid trade.quantity ∧ OnGrid trade.price
  covered : ∀ done trade, done ++ [trade] <+: trades → trade.action = "SELL" →
    trade.quantity ≤ openQuantity done trade.symbol

/-- What one trade does to the lots of its symbol: the gain it adds and the lots it leaves. -/
def matchTrade (lots : List (Lot ℚ)) (trade : Trade ℚ) : ℚ × List (Lot ℚ) :=
  match safeDecimal (some trade.quantity), safeDecimal (some trade.price) with
  | some quantity, some price =>
    if trade.action = "BUY" then (0, lots ++ [⟨quantity, price⟩])
    else if trade.action = "SELL" then sellLots price quantity lots
    else (0, lots)
  | _, _ => (0, lots)

section SubHistory

variable {trades : List (Trade ℚ)} {trade : Trade ℚ} {symbol : String}

/-- A new trade is the last of its symbol. -/
theorem subHistory_append :
    subHistory (trades ++ [trade]) symbol =
      if trade.symbol = symbol then subHistory trades symbol ++ [trade]
      else subHistory trades symbol := by
  rw [subHistory, List.filter_append]
  split_ifs with h <;> simp [subHistory, h]

/-- A trade of the symbol and the side adds its lot at the end. -/
theorem lotsOf_append (action : String) :
    lotsOf action (trades ++ [trade]) symbol =
      if trade.symbol = symbol ∧ trade.action = action then
        lotsOf action trades symbol ++ [trade.lot]
      else lotsOf action trades symbol := by
  rw [lotsOf, subHistory_append]
  by_cases hsymbol : trade.symbol = symbol
  · by_cases haction : trade.action = action <;>
      simp [lotsOf, hsymbol, haction, List.filter_append]
  · simp [lotsOf, hsymbol]

/-- The body of the loop touches the lots of its own symbol only. -/
theorem replayTrade_eq (state : FifoState) (trade : Trade ℚ) :
    replayTrade state trade =
      { pnl := state.pnl + (matchTrade (state.openLots trade.symbol) trade).1
        openLots := Function.update state.openLots trade.symbol
          (matchTrade (state.openLots trade.symbol) trade).2 } := by
  simp only [replayTrade, matchTrade, safeDecimal, Option.map_some]
  split_ifs
  · rw [add_zero]
  · rfl
  · rw [add_zero, Function.update_eq_self]

theorem replayTrades_append :
    replayTrades (trades ++ [trade]) = replayTrade (replayTrades trades) trade := by
  rw [replayTrades, List.foldl_append]
  rfl

/-- The lots of a symbol are those of its own trades. -/
theorem replayTrades_openLots (trades : List (Trade ℚ)) (symbol : String) :
    (replayTrades trades).openLots symbol =
      (replayTrades (subHistory trades symbol)).openLots symbol := by
  induction trades using List.reverseRecOn with
  | nil => rfl
  | append_singleton trades trade ih =>
    rw [replayTrades_append, replayTrade_eq, subHistory_append]
    by_cases hsymbol : trade.symbol = symbol
    · subst hsymbol
      rw [if_pos rfl, replayTrades_append, replayTrade_eq]
      simp only [Function.update_self, ih]
    · rw [if_neg hsymbol, ← ih]
      exact Function.update_of_ne (Ne.symm hsymbol) _ _

/-- The realized P&L is the sum over the symbols of what their own trades realize. -/
theorem calculateRealizedPnl_eq_sum (trades : List (Trade ℚ)) {symbols : Finset String}
    (hsymbols : ∀ trade ∈ trades, trade.symbol ∈ symbols) :
    (replayTrades trades).pnl =
      ∑ symbol ∈ symbols, (replayTrades (subHistory trades symbol)).pnl := by
  induction trades using List.reverseRecOn with
  | nil => simp [subHistory, replayTrades]
  | append_singleton trades trade ih =>
    -- only the summand of the symbol of the last trade changes, by what this trade gains
    have hsummand : ∀ symbol, (replayTrades (subHistory (trades ++ [trade]) symbol)).pnl =
        (replayTrades (subHistory trades symbol)).pnl +
          if trade.symbol = symbol then
            (matchTrade ((replayTrades trades).openLots trade.symbol) trade).1 else 0 := by
      intro symbol
      rw [subHistory_append]
      by_cases hsymbol : trade.symbol = symbol
      · subst hsymbol
        rw [if_pos rfl, if_pos rfl, replayTrades_append, replayTrade_eq,
          ← replayTrades_openLots trades]
      · rw [if_neg hsymbol, if_neg hsymbol, add_zero]
    have hmem : trade.symbol ∈ symbols := hsymbols trade (by simp)
    rw [replayTrades_append, replayTrade_eq, Finset.sum_congr rfl fun symbol _ => hsummand symbol,
      Finset.sum_add_distrib, Finset.sum_ite_eq, if_pos hmem,
      ih fun old hold => hsymbols old (List.mem_append_left _ hold)]

end SubHistory

/-! ### The queue of one symbol -/

namespace CoveredHistory

variable {trades : List (Trade ℚ)} {trade : Trade ℚ}

theorem nil : CoveredHistory [] where
  quantity_nonneg := by simp
  onGrid := by simp
  covered := by simp

/-- A log without its last trade is covered, and the last trade sells no more than is open. -/
theorem of_append (h : CoveredHistory (trades ++ [trade])) : CoveredHistory trades where
  quantity_nonneg old hold := h.quantity_nonneg old (List.mem_append_left _ hold)
  onGrid old hold := h.onGrid old (List.mem_append_left _ hold)
  covered done next hdone := h.covered done next (hdone.trans (List.prefix_append _ _))

/-- A trade that keeps to what is open extends a covered log. -/
theorem append (h : CoveredHistory trades) (trade : Trade ℚ) (hquantity : 0 ≤ trade.quantity)
    (hgrid : OnGrid trade.quantity ∧ OnGrid trade.price)
    (hcovered : trade.action = "SELL" → trade.quantity ≤ openQuantity trades trade.symbol) :
    CoveredHistory (trades ++ [trade]) where
  quantity_nonneg := by
    simpa only [List.forall_mem_append, List.forall_mem_singleton] using
      ⟨h.quantity_nonneg, hquantity⟩
  onGrid := by
    simpa only [List.forall_mem_append, List.forall_mem_singleton] using ⟨h.onGrid, hgrid⟩
  covered := Runs.forall_prefix_concat.mpr ⟨h.covered, hcovered⟩

/-- Lots of a covered log are not negative. -/
theorem lotsOf_nonneg (h : CoveredHistory trades) (action symbol : String) :
    Lot.AllNonneg (lotsOf action trades symbol) := by
  intro lot hlot
  obtain ⟨trade, htrade, rfl⟩ := List.mem_map.mp hlot
  exact h.quantity_nonneg trade (List.mem_of_mem_filter (List.mem_of_mem_filter htrade))

/-- No more is sold of a symbol than is bought of it. -/
theorem sold_le_bought (h : CoveredHistory trades) (symbol : String) :
    Lot.totalUnits (lotsOf "SELL" trades symbol) ≤ Lot.totalUnits (lotsOf "BUY" trades symbol) := by
  induction trades using List.reverseRecOn with
  | nil => rfl
  | append_singleton trades trade ih =>
    have hbefore := ih h.of_append
    have hquantity : 0 ≤ trade.lot.units := h.quantity_nonneg trade (by simp)
    rw [lotsOf_append, lotsOf_append]
    by_cases hsell : trade.symbol = symbol ∧ trade.action = "SELL"
    · -- a sale is within what is open before it
      obtain ⟨rfl, haction⟩ := hsell
      have hcovered := h.covered trades trade List.prefix_rfl haction
      rw [if_pos ⟨rfl, haction⟩, if_neg (by simp [haction]), Lot.totalUnits_append,
        Lot.totalUnits_cons, Lot.totalUnits_nil, add_zero]
      rw [openQuantity] at hcovered
      exact le_sub_iff_add_le'.mp hcovered
    · -- any other trade can only enlarge the bought side
      rw [if_neg hsell]
      split_ifs
      · rw [Lot.totalUnits_append, Lot.totalUnits_cons, Lot.totalUnits_nil]
        linarith
      · exact hbefore

/-- The queue of a symbol is what the units sold have left of the purchases, and the P&L is the
proceeds less the cost of the units bought first. -/
theorem replay_subHistory (h : CoveredHistory trades) (symbol : String) :
    (replayTrades (subHistory trades symbol)).openLots symbol =
        Lot.dropUnits (Lot.totalUnits (lotsOf "SELL" trades symbol))
          (lotsOf "BUY" trades symbol) ∧
      (replayTrades (subHistory trades symbol)).pnl =
        Lot.totalCost (lotsOf "SELL" trades symbol) -
          Lot.totalCost (Lot.takeUnits (Lot.totalUnits (lotsOf "SELL" trades symbol))
            (lotsOf "BUY" trades symbol)) := by
  -- along the log; the last trade is a purchase or a sale of the symbol, or concerns neither
  induction trades using List.reverseRecOn with
  | nil => simp [subHistory, lotsOf, replayTrades, Lot.dropUnits, Lot.takeUnits]
  | append_singleton trades trade ih =>
    obtain ⟨hlots, hpnl⟩ := ih h.of_append
    have hle := h.of_append.sold_le_bought symbol
    have hbought := h.of_append.lotsOf_nonneg "BUY" symbol
    have hsold := (h.of_append.lotsOf_nonneg "SELL" symbol).totalUnits_nonneg
    have hquantity : 0 ≤ trade.quantity := h.quantity_nonneg trade (by simp)
    obtain ⟨hquantityGrid, hpriceGrid⟩ := h.onGrid trade (by simp)
    rw [subHistory_append, lotsOf_append, lotsOf_append]
    by_cases hsymbol : trade.symbol = symbol
    · subst hsymbol
      have hcovered := h.covered trades trade List.prefix_rfl
      rw [openQuantity] at hcovered
      rw [if_pos rfl, replayTrades_append, replayTrade_eq]
      simp only [Function.update_self, true_and, hlots, hpnl, matchTrade,
        safeDecimal_of_onGrid hquantityGrid, safeDecimal_of_onGrid hpriceGrid]
      by_cases hbuy : trade.action = "BUY"
      · -- a purchase joins the queue behind the units that are left
        have hnot : trade.action ≠ "SELL" := by simp [hbuy]
        rw [if_pos hbuy, if_neg hnot, if_pos hbuy, Lot.dropUnits_append hle,
          Lot.takeUnits_append_of_le _ hle, add_zero]
        exact ⟨rfl, rfl⟩
      · rw [if_neg hbuy]
        by_cases hsell : trade.action = "SELL"
        · -- a sale takes the units behind those that were sold before
          have hopen : trade.quantity ≤ Lot.totalUnits (Lot.dropUnits
              (Lot.totalUnits (lotsOf "SELL" trades trade.symbol))
              (lotsOf "BUY" trades trade.symbol)) := by
            rw [Lot.totalUnits_dropUnits hsold hle]
            exact hcovered hsell
          have htaken := Lot.totalValue_takeUnits_dropUnits id hbought hsold hquantity
          simp only [Lot.totalValue_id] at htaken
          rw [if_pos hsell, if_pos hsell, if_neg hbuy, sellLots_eq _ hquantity hopen]
          simp only [Lot.totalUnits_append, Lot.totalUnits_cons, Lot.totalUnits_nil,
            Lot.totalCost_append, Lot.totalCost_cons, Lot.totalCost_nil, add_zero, Trade.lot]
          refine ⟨Lot.dropUnits_dropUnits hbought hsold hquantity, ?_⟩
          rw [htaken]
          ring
        · rw [if_neg hsell, if_neg hsell, if_neg hbuy, add_zero]
          exact ⟨rfl, rfl⟩
    · simp only [hsymbol, false_and, ↓reduceIte]
      exact ⟨hlots, hpnl⟩

/-- The open lots of a symbol. -/
theorem openLots_eq (h : CoveredHistory trades) (symbol : String) :
    (replayTrades trades).openLots symbol =
      Lot.dropUnits (Lot.totalUnits (lotsOf "SELL" trades symbol))
        (lotsOf "BUY" trades symbol) := by
  rw [replayTrades_openLots]
  exact (h.replay_subHistory symbol).1

/-- The open lots of a symbol hold what is bought less what is sold. -/
theorem totalUnits_openLots (h : CoveredHistory trades) (symbol : String) :
    Lot.totalUnits ((replayTrades trades).openLots symbol) = openQuantity trades symbol := by
  have hsold := (h.lotsOf_nonneg "SELL" symbol).totalUnits_nonneg
  rw [h.openLots_eq, Lot.totalUnits_dropUnits hsold (h.sold_le_bought symbol), openQuantity]

/-- The P&L of one symbol is the reference value. -/
theorem pnl_eq_reference (h : CoveredHistory trades) (symbol : String) :
    (replayTrades (subHistory trades symbol)).pnl = fifoReference trades symbol := by
  rw [(h.replay_subHistory symbol).2, fifoReference,
    Lot.matchedGain_eq (h.lotsOf_nonneg _ _) (h.lotsOf_nonneg _ _) (h.sold_le_bought symbol)]

end CoveredHistory

/-! ### The whole log -/

/-- The symbols of a log. -/
def tradedSymbols (trades : List (Trade ℚ)) : Finset String :=
  (trades.map Trade.symbol).toFinset

theorem symbol_mem_tradedSymbols {trades : List (Trade ℚ)} :
    ∀ trade ∈ trades, trade.symbol ∈ tradedSymbols trades :=
  fun _ htrade => List.mem_toFinset.mpr (List.mem_map_of_mem htrade)

/-- For every covered log, over any interleaving of its symbols, the realized P&L is the sum of the
gains on the overlaps of cumulative quantities. It depends on the log of each symbol alone, and the
open lots hold what is bought less what is sold, none of them less than nothing. -/
theorem calculateRealizedPnl_eq_reference (account : Account ℚ)
    (h : CoveredHistory account.trades) :
    calculateRealizedPnl account =
        ∑ symbol ∈ tradedSymbols account.trades, fifoReference account.trades symbol ∧
      (∀ other : Account ℚ, (∀ symbol,
          subHistory other.trades symbol = subHistory account.trades symbol) →
        calculateRealizedPnl other = calculateRealizedPnl account) ∧
      ∀ symbol, Lot.totalUnits (account.openLots symbol) = openQuantity account.trades symbol ∧
        ∀ lot ∈ account.openLots symbol, 0 ≤ lot.units := by
  have hsum := calculateRealizedPnl_eq_sum account.trades symbol_mem_tradedSymbols
  refine ⟨?_, ?_, ?_⟩
  · rw [calculateRealizedPnl, hsum]
    exact Finset.sum_congr rfl fun symbol _ => h.pnl_eq_reference symbol
  · intro other hsame
    -- both logs are summed over the symbols of either
    let symbols := tradedSymbols account.trades ∪ tradedSymbols other.trades
    have hleft : ∀ trade ∈ account.trades, trade.symbol ∈ symbols := fun trade htrade =>
      Finset.mem_union_left _ (symbol_mem_tradedSymbols trade htrade)
    have hright : ∀ trade ∈ other.trades, trade.symbol ∈ symbols := fun trade htrade =>
      Finset.mem_union_right _ (symbol_mem_tradedSymbols trade htrade)
    rw [calculateRealizedPnl, calculateRealizedPnl, calculateRealizedPnl_eq_sum _ hleft,
      calculateRealizedPnl_eq_sum _ hright]
    exact Finset.sum_congr rfl fun symbol _ => by rw [hsame]
  · intro symbol
    refine ⟨h.totalUnits_openLots symbol, ?_⟩
    rw [Account.openLots, h.openLots_eq]
    exact (h.lotsOf_nonneg "BUY" symbol).dropUnits _

/-- Two purchases of one symbol around a purchase of another, and a sale across both lots. -/
def crossingSale : List (Trade ℚ) :=
  [⟨1, "AAPL", "BUY", 5, 100, none, 0⟩, ⟨2, "MSFT", "BUY", 1, 400, none, 1⟩,
    ⟨3, "AAPL", "BUY", 3, 200, none, 2⟩, ⟨4, "AAPL", "SELL", 6, 250, none, 3⟩]

/-- A sale that takes shares of two purchases. -/
theorem calculateRealizedPnl_eq_reference_crossingSale :
    calculateRealizedPnl ⟨0, [], crossingSale, []⟩ =
      ∑ symbol ∈ tradedSymbols crossingSale, fifoReference crossingSale symbol := by
  have hcovered : CoveredHistory crossingSale :=
    (((CoveredHistory.nil.append ⟨1, "AAPL", "BUY", 5, 100, none, 0⟩ (by norm_num)
      ⟨onGrid_natCast 5, onGrid_natCast 100⟩ (by simp)).append
      ⟨2, "MSFT", "BUY", 1, 400, none, 1⟩ (by norm_num)
      ⟨by simpa using onGrid_natCast 1, onGrid_natCast 400⟩ (by simp)).append
      ⟨3, "AAPL", "BUY", 3, 200, none, 2⟩ (by norm_num)
      ⟨onGrid_natCast 3, onGrid_natCast 200⟩ (by simp)).append
      ⟨4, "AAPL", "SELL", 6, 250, none, 3⟩ (by norm_num)
      ⟨onGrid_natCast 6, onGrid_natCast 250⟩ fun _ => by decide +kernel
  exact (calculateRealizedPnl_eq_reference ⟨0, [], crossingSale, []⟩ hcovered).1

end TradingSimulator
