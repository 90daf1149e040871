import TradingSimulator.Api.TradeRuns
import TradingSimulator.Library.Runs

/-!
# What the risk gate bounds

The gate reads the symbol and the action as they were sent, the engine reads them in upper case. A
buy whose action or symbol is not sent in upper case is therefore checked as something else, or
against the position of another symbol. `always_withinLimits_iff` says that the limits hold
throughout a run exactly when every request executed as a buy would also have passed the gate in
upper case, and `lowerCaseBuy_exceeds` shows a request for which this fails.
-/

namespace TradingSimulator

/-- `MAX_POSITION_PER_STOCK` and `MAX_TOTAL_EXPOSURE` as bounds on the rows of an account. -/
structure Account.WithinLimits (account : Account ℚ) : Prop where
  position : ∀ position ∈ account.positions, position.quantity ≤ maxPositionPerStock
  exposure : account.cost ≤ maxTotalExposure

/-- The engine executes the request as a buy at `price`: it reads `BUY`, finds a valid quote and
the cash covers the order. -/
def BoughtAt (upper : String → String) (account : Account ℚ) (call : TradeCall ℚ) (price : ℚ) :
    Prop :=
  upper call.request.action = "BUY" ∧
    validPrice? (call.market.getPrice (upper call.request.symbol)) = some price ∧
    price * call.request.quantity ≤ account.balance

/-- A request that is executed as a buy also passes the gate with the symbol and the action the
engine reads. -/
def CheckedAsBuy (upper : String → String) (account : Account ℚ) (call : TradeCall ℚ) : Prop :=
  Admitted account call → ∀ price, BoughtAt upper account call price →
    checkRiskLimits (account.riskReads (upper call.request.symbol) call.now)
      (upper call.request.action) call.request.quantity price = true

variable {upper : String → String} {account : Account ℚ} {call : TradeCall ℚ}

/-- The exposure the gate reads is the book cost. -/
theorem totalExposure_getD (account : Account ℚ) : account.totalExposure.getD 0 = account.cost := by
  have hcolumn : (account.positions.map fun position =>
      some (position.quantity * position.avgPrice)).filterMap id =
      account.positions.map Position.cost := by
    simp [List.filterMap_map, Position.cost]
  rw [Account.totalExposure, sqlSum, hcolumn, Account.cost]
  split
  · next hnil => simp [hnil]
  · rfl

/-- What the gate asks of a buy with a positive quantity and price once the daily loss is fine. -/
theorem checkRiskLimits_buy_iff {symbol : String} {now : ℤ} {quantity price : ℚ}
    (hloss : checkDailyLossLimit (.ok (account.dailyRealized now)) = true)
    (hquantity : 0 < quantity) (hprice : 0 < price) :
    checkRiskLimits (account.riskReads symbol now) "BUY" quantity price = true ↔
      account.quantityOf symbol + quantity ≤ maxPositionPerStock ∧
        account.cost + price * quantity ≤ maxTotalExposure := by
  rw [checkRiskLimits_riskReads, totalExposure_getD, mul_comm quantity]
  simp [hloss, hquantity, hprice, Account.quantityOf, heldQuantity]

/-- Recording a buy keeps the limits exactly when the position and the exposure stay below them. -/
theorem withinLimits_record_buy_iff {symbol : String} {quantity price : ℚ} {fill : Fill ℚ}
    {trade : Trade ℚ} (hrows : account.RowsValid) (hlimits : account.WithinLimits)
    (h : fillOrder "BUY" symbol quantity price account.balance (account.position? symbol) =
      .ok fill) (htrade : trade.symbol = symbol) (hprice : 0 < price) (hquantity : 0 < quantity) :
    (account.record trade fill).WithinLimits ↔
      account.quantityOf symbol + quantity ≤ maxPositionPerStock ∧
        account.cost + price * quantity ≤ maxTotalExposure := by
  have hbound : (0 : ℚ) ≤ maxPositionPerStock := Nat.cast_nonneg _
  -- the two columns the limits are about, after the purchase
  have hcost : (account.record trade fill).cost = account.cost + price * quantity := by
    rw [Account.cost_record h htrade, buyFill_heldCost ((if_pos rfl).symm.trans h)]
    ring
  have hheld := Account.quantityOf_record h htrade hrows.unique
  simp only [signedQuantity, ↓reduceIte] at hheld
  have hold := (hrows.forall_quantity_le_iff hbound).mp hlimits.position
  have hnew := (hrows.record h htrade hprice hquantity).forall_quantity_le_iff hbound
  constructor
  · rintro ⟨hposition, hexposure⟩
    have hself := hnew.mp hposition symbol
    rw [hheld, if_pos rfl] at hself
    exact ⟨hself, hcost ▸ hexposure⟩
  · rintro ⟨hposition, hexposure⟩
    refine ⟨hnew.mpr fun other => ?_, hcost ▸ hexposure⟩
    rw [hheld]
    -- only the symbol that is bought grows
    by_cases hsame : symbol = other
    · rw [if_pos hsame, ← hsame]
      exact hposition
    · rw [if_neg hsame, add_zero]
      exact hold other

/-- Recording a sale keeps the limits. -/
theorem withinLimits_record_sell {action symbol : String} {quantity price : ℚ} {fill : Fill ℚ}
    {trade : Trade ℚ} (hrows : account.RowsValid) (hlimits : account.WithinLimits)
    (h : fillOrder action symbol quantity price account.balance (account.position? symbol) =
      .ok fill) (haction : action ≠ "BUY") (htrade : trade.symbol = symbol) (hprice : 0 < price)
    (hquantity : 0 < quantity) : (account.record trade fill).WithinLimits := by
  have hbound : (0 : ℚ) ≤ maxPositionPerStock := Nat.cast_nonneg _
  have hold := (hrows.forall_quantity_le_iff hbound).mp hlimits.position
  have hnew := (hrows.record h htrade hprice hquantity).forall_quantity_le_iff hbound
  -- a sale takes from the quantity of its symbol and, at a positive average price, from the cost
  refine ⟨hnew.mpr fun other => ?_, ?_⟩
  · rw [Account.quantityOf_record h htrade hrows.unique, signedQuantity, if_neg haction]
    by_cases hsame : symbol = other
    · rw [if_pos hsame]
      linarith [hold other]
    · rw [if_neg hsame, add_zero]
      exact hold other
  · obtain ⟨old, hposition, hcost⟩ := sellFill_heldCost ((if_neg haction).symm.trans h)
    have hvalid := hrows.valid old (Account.mem_of_position? old hposition)
    have hsold : 0 < old.avgPrice * quantity := mul_pos hvalid.2 hquantity
    rw [Account.cost_record h htrade, hcost]
    linarith [hlimits.exposure]

/-- A snapshot does not touch the rows the limits are about. -/
theorem withinLimits_recordEquitySnapshot (account : Account ℚ) (market : MarketState ℚ)
    (now : ℤ) : (account.recordEquitySnapshot market now).WithinLimits ↔ account.WithinLimits := by
  constructor <;>
    · rintro ⟨hposition, hexposure⟩
      exact ⟨by simpa using hposition, by simpa using hexposure⟩

/-- One request keeps the limits exactly when it is checked as the buy it is executed as. -/
theorem tradeStep_withinLimits_iff (hrows : account.RowsValid) (hlimits : account.WithinLimits) :
    (tradeStep upper account call).WithinLimits ↔ CheckedAsBuy upper account call := by
  by_cases hfilled : Filled upper account call
  · obtain ⟨hadmitted, price, fill, hfills⟩ := hfilled
    have hprice := hfills.price_pos
    have hquantity := hadmitted.quantity_pos
    rw [tradeStep_of_filled hadmitted hfills, withinLimits_recordEquitySnapshot]
    by_cases haction : upper call.request.action = "BUY"
    · -- the gate has looked at the daily loss of the account, whatever symbol it was asked for
      have hfill := haction ▸ hfills.2
      obtain ⟨-, gatePrice, -, hgate⟩ := id hadmitted
      have hloss := ((checkRiskLimits_riskReads ..).mp hgate).1
      rw [withinLimits_record_buy_iff hrows hlimits hfill rfl hprice hquantity,
        ← checkRiskLimits_buy_iff hloss hquantity hprice, CheckedAsBuy, haction]
      have hcash := (buyFill_ok ((if_pos rfl).symm.trans hfill)).1
      constructor
      · rintro hcheck - other ⟨-, hother, -⟩
        obtain rfl : price = other := Option.some.inj (hfills.1.symm.trans hother)
        exact hcheck
      · intro hcheck
        exact hcheck hadmitted price ⟨haction, hfills.1, hcash⟩
    -- a sale only lowers the exposure
    · refine iff_of_true (withinLimits_record_sell hrows hlimits hfills.2 haction rfl hprice
        hquantity) ?_
      rintro - other ⟨hother, -⟩
      exact absurd hother haction
  · -- an admitted request that the engine would buy is filled
    rw [tradeStep_of_not_filled hfilled]
    refine iff_of_true hlimits fun hadmitted price hbought => ?_
    refine absurd ⟨hadmitted, (exists_fills_iff hrows hadmitted).mpr ?_⟩ hfilled
    exact ⟨price, hbought.2.1, Or.inl ⟨hbought.1, hbought.2.2⟩⟩

/-- From an account without positions, the limits hold in every state of a run exactly when every
request of the run that is executed as a buy was checked as that buy. -/
theorem always_withinLimits_iff (upper : String → String) (account : Account ℚ)
    (hempty : account.positions = []) (calls : List (TradeCall ℚ)) :
    Runs.Always (tradeStep upper) Account.WithinLimits account calls ↔
      Runs.EveryStep (tradeStep upper) (CheckedAsBuy upper) account calls := by
  have hlimits : account.WithinLimits :=
    ⟨by simp [hempty], by simp [Account.cost, hempty, maxTotalExposure]⟩
  exact Runs.always_iff_everyStep (A := fun _ => True)
    (fun account call _ hrows => tradeStep_rowsValid upper account call hrows)
    (fun _ _ _ hrows hlimits => tradeStep_withinLimits_iff hrows hlimits)
    (Account.RowsValid.of_nil hempty) hlimits fun _ _ => trivial

/-- An order in capitals is bounded by the gate. -/
theorem always_withinLimits_upperCaseBuy :
    Runs.Always (tradeStep String.toUpper) Account.WithinLimits (Account.opened 100000)
      [appleOrder 1 "BUY" 10] := by
  refine (always_withinLimits_iff String.toUpper (Account.opened 100000) rfl _).mpr ?_
  rw [Runs.everyStep_cons]
  refine ⟨?_, Runs.everyStep_nil⟩
  rintro - price ⟨-, hprice, -⟩
  have hquote :
      validPrice? ((appleOrder 1 "BUY" 10).market.getPrice "AAPL".toUpper) = some 100 := by
    decide +kernel
  obtain rfl : 100 = price := Option.some.inj (hquote.symm.trans hprice)
  decide +kernel

/-- The gate does not see the action `buy` as a buy, the engine does. -/
theorem lowerCaseBuy_exceeds :
    ¬ Runs.Always (tradeStep String.toUpper) Account.WithinLimits (Account.opened 100000)
      [appleOrder 1 "buy" 200] := by
  intro h
  have hlimits := h [appleOrder 1 "buy" 200] List.prefix_rfl
  have hposition := hlimits.position ⟨"AAPL", 200, 100⟩ (by decide +kernel)
  norm_num [maxPositionPerStock] at hposition

end TradingSimulator
