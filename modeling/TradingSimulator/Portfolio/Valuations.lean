import TradingSimulator.Portfolio.EquityEngine
import TradingSimulator.Portfolio.PnlEngine

/-!
# Two valuations of one portfolio

The P&L report (`get_total_pnl`) and the equity curve (`calculate_total_equity`) both value a
position at its quote. A position without a quote the report values at the last close of the data
provider, and it leaves the position out when there is none; the equity curve values it at its
average price. `totalEquity_eq_iff` compares the two over every mix of quoted and unquoted
positions.
-/

namespace TradingSimulator

/-- The positions without a quote. -/
def Account.unquoted (account : Account ℚ) (market : MarketState ℚ) : List (Position ℚ) :=
  account.positions.filter fun position => market.getPrice position.symbol = none

/-- What the report counts for a position, zero when it is left out. -/
def reportedValue (market : MarketState ℚ) (lastClose : String → Option ℚ)
    (position : Position ℚ) : ℚ :=
  position.quantity * (getSafePrice market lastClose position.symbol).getD 0

/-- The last close of a symbol as the report rounds it, zero when the provider has none. -/
def closeOrZero (lastClose : String → Option ℚ) (symbol : String) : ℚ :=
  (safeDecimal (lastClose symbol)).getD 0

/-- Without a quote the price is the last close. -/
theorem getSafePrice_of_unquoted {market : MarketState ℚ} {symbol : String}
    (h : market.getPrice symbol = none) (lastClose : String → Option ℚ) :
    getSafePrice market lastClose symbol = safeDecimal (lastClose symbol) := by
  rw [getSafePrice, h]
  cases lastClose symbol with
  | none => rfl
  | some close => rfl

/-- The market value of the report is that of the positions it does not leave out. -/
theorem marketValue_eq {market : MarketState ℚ} (lastClose : String → Option ℚ)
    (getSignal : String → String) {account : Account ℚ}
    (hgrid : ∀ position ∈ account.positions, OnGrid position.quantity ∧ OnGrid position.avgPrice) :
    (getTotalPnl market lastClose getSignal account).marketValue =
      (account.positions.map (reportedValue market lastClose)).sum := by
  rw [getTotalPnl, calculateUnrealizedPnl]
  -- along the positions
  generalize account.positions = positions at hgrid
  induction positions with
  | nil => rfl
  | cons position positions ih =>
    rw [List.forall_mem_cons] at hgrid
    obtain ⟨⟨hquantity, havg⟩, hrest⟩ := hgrid
    have hvalue := ih hrest
    cases hprice : getSafePrice market lastClose position.symbol with
    | none =>
      simpa [hprice, reportedValue] using hvalue
    | some price =>
      simpa [hprice, reportedValue, safeDecimal_of_onGrid hquantity, safeDecimal_of_onGrid havg]
        using hvalue

/-- A quoted position has the same value in both. -/
theorem reportedValue_of_quoted {market : MarketState ℚ} (lastClose : String → Option ℚ)
    {position : Position ℚ} {price : ℚ} (hprice : market.getPrice position.symbol = some price)
    (hpos : 0 < price) (hgrid : OnGrid price) :
    reportedValue market lastClose position =
      markPrice market.prices position * position.quantity := by
  have hquote : validPrice? (market.prices position.symbol) = some price :=
    validPrice?_eq_some_iff.mpr ⟨hprice, hpos⟩
  rw [reportedValue, getSafePrice, hprice, markPrice, hquote, Option.getD_some]
  simp only [safeDecimal_of_onGrid hgrid, Option.getD_some]
  exact mul_comm _ _

/-- An unquoted position has the value of its close in one and its cost in the other. -/
theorem reportedValue_of_unquoted {market : MarketState ℚ} (lastClose : String → Option ℚ)
    {position : Position ℚ} (h : market.getPrice position.symbol = none) :
    reportedValue market lastClose position =
      position.quantity * closeOrZero lastClose position.symbol := by
  rw [reportedValue, getSafePrice_of_unquoted h, closeOrZero]

/-- Without a quote a position is worth its cost. -/
theorem markPrice_of_unquoted {market : MarketState ℚ} {position : Position ℚ}
    (h : market.getPrice position.symbol = none) :
    markPrice market.prices position * position.quantity = position.cost := by
  have hquote : market.prices position.symbol = none := h
  rw [markPrice, hquote, Position.cost, mul_comm]
  rfl

/-- Two sums over a list that agree outside of `p` are equal when they are on `p`. -/
theorem sum_map_eq_iff_filter {β : Type} {p : β → Prop} [DecidablePred p] {f g : β → ℚ}
    {l : List β} (h : ∀ a ∈ l, ¬ p a → f a = g a) :
    (l.map f).sum = (l.map g).sum ↔ ((l.filter p).map f).sum = ((l.filter p).map g).sum := by
  have hrest : (l.filter fun a => ¬ p a).map f = (l.filter fun a => ¬ p a).map g := by
    refine List.map_congr_left fun a ha => ?_
    obtain ⟨hmem, hnot⟩ := List.mem_filter.mp ha
    exact h a hmem (by simpa using hnot)
  rw [← List.sum_map_filter_add_sum_map_filter_not p f,
    ← List.sum_map_filter_add_sum_map_filter_not p g, hrest, add_left_inj]

/-- The report and the equity curve agree on the equity exactly when the positions without a quote
are worth at the provider's closes what they have cost. -/
theorem totalEquity_eq_iff {market : MarketState ℚ} (lastClose : String → Option ℚ)
    (getSignal : String → String) {account : Account ℚ}
    (hquoted : ∀ position ∈ account.positions, ∀ price,
      market.getPrice position.symbol = some price → 0 < price ∧ OnGrid price)
    (hgrid : ∀ position ∈ account.positions, OnGrid position.quantity ∧ OnGrid position.avgPrice) :
    (getTotalPnl market lastClose getSignal account).totalEquity = account.totalEquity market ↔
      ((account.unquoted market).map fun position =>
        position.quantity * closeOrZero lastClose position.symbol).sum =
      ((account.unquoted market).map Position.cost).sum := by
  have hreport : (getTotalPnl market lastClose getSignal account).totalEquity =
      account.balance + (account.positions.map (reportedValue market lastClose)).sum := by
    rw [← marketValue_eq lastClose getSignal hgrid]
    rfl
  -- the quoted positions have the same value in both
  have hquotedValue : ∀ position ∈ account.positions, market.getPrice position.symbol ≠ none →
      reportedValue market lastClose position =
        markPrice market.prices position * position.quantity := by
    intro position hposition hsome
    obtain ⟨price, hprice⟩ := Option.ne_none_iff_exists'.mp hsome
    obtain ⟨hpos, hgridPrice⟩ := hquoted position hposition price hprice
    exact reportedValue_of_quoted lastClose hprice hpos hgridPrice
  have hunquoted : ∀ position ∈ account.unquoted market,
      market.getPrice position.symbol = none := by
    intro position hposition
    simpa using (List.mem_filter.mp hposition).2
  rw [hreport, totalEquity_eq, add_right_inj, sum_map_eq_iff_filter hquotedValue]
  show ((account.unquoted market).map _).sum = ((account.unquoted market).map _).sum ↔ _
  rw [List.map_congr_left fun position hposition =>
      reportedValue_of_unquoted lastClose (hunquoted position hposition),
    List.map_congr_left fun position hposition =>
      markPrice_of_unquoted (hunquoted position hposition)]

/-- A quoted and an unquoted position. -/
def halfQuoted : Account ℚ :=
  { Account.opened 100000 with positions := [⟨"AAPL", 1, 100⟩, ⟨"TSLA", 2, 300⟩] }

/-- One of two positions is quoted, and the other one is valued at its last close. -/
theorem totalEquity_eq_iff_halfQuoted :
    (getTotalPnl (MarketState.ofQuotes [("AAPL", 250)]) (fun _ => some 300) (fun _ => "HOLD")
        halfQuoted).totalEquity =
      halfQuoted.totalEquity (MarketState.ofQuotes [("AAPL", 250)]) := by
  refine (totalEquity_eq_iff (fun _ => some 300) (fun _ => "HOLD") ?_ ?_).mpr (by decide +kernel)
  · -- the one quote is 250
    intro position hposition price hprice
    have hquote : price = 250 := by
      rcases List.mem_pair.mp hposition with rfl | rfl
      · simpa [MarketState.getPrice, MarketState.ofQuotes, eq_comm] using hprice
      · have hnone : (MarketState.ofQuotes [("AAPL", (250 : ℚ))]).getPrice "TSLA" = none := by
          decide +kernel
        exact absurd (hnone.symm.trans hprice) (by simp)
    rw [hquote]
    exact ⟨by norm_num, onGrid_natCast 250⟩
  · simpa [halfQuoted] using And.intro
      (And.intro (onGrid_natCast 1) (onGrid_natCast 100))
      (And.intro (onGrid_natCast 2) (onGrid_natCast 300))

/-- After a restart nothing is quoted yet, and the provider answers 228. -/
theorem afterRestart_totalEquity_ne :
    (getTotalPnl MarketState.empty (fun _ => some 228) (fun _ => "HOLD") halfQuoted).totalEquity ≠
      halfQuoted.totalEquity MarketState.empty := by
  decide +kernel

end TradingSimulator
