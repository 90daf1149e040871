import TradingSimulator.Api.Routes
import TradingSimulator.Execution.AccountRows
import TradingSimulator.Library.ExtNum

/-!
# Requests with a non-finite quantity

The schema of `POST /trades` admits NaN and the infinities as a quantity, so the route, the gate
and the engine are read here over `ExtNum ℚ`. On finite inputs the engine computes what it computes
over exact rationals (`fillOrder_fin`). An infinite quantity is refused on every path, but NaN
passes every guard of the form "refuse if the quantity is too large". `trade_finite_iff` lists
exactly the requests that leave a non-finite balance behind, and `nanBuy_corrupts` is one of them.
-/

namespace TradingSimulator

open ExtNum (fin)

/-- The row with `f` applied to its numbers. -/
def Position.map {α β : Type} (f : α → β) (position : Position α) : Position β :=
  { symbol := position.symbol, quantity := f position.quantity, avgPrice := f position.avgPrice }

/-- The fill with `f` applied to its numbers. -/
def Fill.map {α β : Type} (f : α → β) (fill : Fill α) : Fill β where
  balance := f fill.balance
  position := fill.position.map (Position.map f)
  realizedPnl := fill.realizedPnl.map f

/-! ### The engine on the three kinds of quantity -/

section Engine

variable (action symbol : String)

/-- A purchase with finite numbers computes what it computes with rational ones. -/
theorem buyFill_fin (quantity price balance : ℚ) (position : Option (Position ℚ)) :
    buyFill symbol (fin quantity) (fin price) (fin balance) (position.map (Position.map fin)) =
      (buyFill symbol quantity price balance position).map (Fill.map fin) := by
  cases position with
  | none =>
    simp only [buyFill, Option.map_none, ExtNum.fin_mul_fin, ExtNum.fin_lt_fin,
      ExtNum.fin_sub_fin]
    split <;> rfl
  | some old =>
    simp only [buyFill, Option.map_some, Position.map, ExtNum.fin_mul_fin, ExtNum.fin_lt_fin,
      ExtNum.fin_sub_fin, ExtNum.fin_add_fin, ExtNum.zero_eq, ExtNum.fin_beq_fin,
      decide_eq_true_eq, beq_iff_eq]
    split
    · rfl
    · split
      · rfl
      · next hne =>
        -- the division stays finite, as its divisor has been checked
        rw [ExtNum.fin_div_fin _ hne]
        rfl

/-- A sale with finite numbers computes what it computes with rational ones. -/
theorem sellFill_fin (quantity price balance : ℚ) (position : Option (Position ℚ)) :
    sellFill (fin quantity) (fin price) (fin balance) (position.map (Position.map fin)) =
      (sellFill quantity price balance position).map (Fill.map fin) := by
  cases position with
  | none => rfl
  | some old =>
    simp only [sellFill, Option.map_some, Position.map, ExtNum.fin_mul_fin, ExtNum.fin_lt_fin,
      ExtNum.fin_sub_fin, ExtNum.fin_add_fin, ExtNum.zero_eq, ExtNum.fin_beq_fin,
      decide_eq_true_eq, beq_iff_eq]
    split
    · rfl
    · by_cases hzero : old.quantity - quantity = 0 <;>
        simp [hzero, Except.map, Fill.map, Position.map]

/-- On finite inputs the engine computes the exact fill. -/
theorem fillOrder_fin (quantity price balance : ℚ) (position : Option (Position ℚ)) :
    fillOrder action symbol (fin quantity) (fin price) (fin balance)
        (position.map (Position.map fin)) =
      (fillOrder action symbol quantity price balance position).map (Fill.map fin) := by
  simp only [fillOrder]
  split
  · exact buyFill_fin symbol quantity price balance position
  · exact sellFill_fin quantity price balance position

/-- No branch fills an infinite quantity: neither the cash nor the shares cover it. -/
theorem fillOrder_inf (price balance : ℚ) (position : Option (Position ℚ)) (hprice : 0 < price)
    (fill : Fill (ExtNum ℚ)) :
    fillOrder action symbol (.inf false) (fin price) (fin balance)
      (position.map (Position.map fin)) ≠ .ok fill := by
  simp only [fillOrder]
  split
  · -- an infinite order value is above every finite balance
    cases position <;> simp [buyFill, ExtNum.fin_mul_inf hprice]
  · -- and an infinite quantity above every finite holding
    cases position <;> simp [sellFill, Position.map]

/-- A NaN quantity is filled by a buy and, when there is a position row, by every other action. -/
theorem exists_fillOrder_nan_iff (price balance : ExtNum ℚ)
    (position : Option (Position (ExtNum ℚ))) :
    (∃ fill, fillOrder action symbol .nan price balance position = .ok fill) ↔
      action = "BUY" ∨ position.isSome := by
  -- `balance < nan`, `nan == 0` and `quantity < nan` are all false
  by_cases haction : action = "BUY"
  · cases position <;> simp [fillOrder, buyFill, haction]
  · cases position <;> simp [fillOrder, sellFill, haction]

/-- A fill of a NaN quantity leaves a NaN balance. -/
theorem fillOrder_nan_balance {price balance : ExtNum ℚ}
    {position : Option (Position (ExtNum ℚ))} {fill : Fill (ExtNum ℚ)}
    (h : fillOrder action symbol .nan price balance position = .ok fill) :
    fill.balance = .nan := by
  -- every comparison with NaN is false, so none of the checks fires
  by_cases haction : action = "BUY"
  · cases position with
    | none =>
      simp only [fillOrder, haction, ↓reduceIte, buyFill, ExtNum.mul_nan, ExtNum.not_lt_nan,
        ExtNum.sub_nan, Except.ok.injEq] at h
      rw [← h]
    | some old =>
      simp only [fillOrder, haction, ↓reduceIte, buyFill, ExtNum.mul_nan, ExtNum.not_lt_nan,
        ExtNum.sub_nan, ExtNum.add_nan, ExtNum.nan_beq, Bool.false_eq_true, Except.ok.injEq] at h
      rw [← h]
  · cases position with
    | none => simp [fillOrder, haction, sellFill] at h
    | some old =>
      simp only [fillOrder, haction, ↓reduceIte, sellFill, ExtNum.mul_nan, ExtNum.not_lt_nan,
        ExtNum.add_nan, Except.ok.injEq] at h
      rw [← h]

end Engine

/-! ### The route -/

/-- The numbers of a row are not negative. -/
def Position.NonNegative (position : Position ℚ) : Prop :=
  0 ≤ position.quantity ∧ 0 ≤ position.avgPrice

/-- The cash is finite and not negative, and every row is a finite row with the property `P`. -/
structure Account.Finite (P : Position ℚ → Prop) (account : Account (ExtNum ℚ)) : Prop where
  balance : ∃ balance : ℚ, account.balance = fin balance ∧ 0 ≤ balance
  positions : ∀ position ∈ account.positions, ∃ row : Position ℚ, position = row.map fin ∧ P row

/-- Every quoted price is finite and positive. -/
def MarketState.FinitePositive (market : MarketState (ExtNum ℚ)) : Prop :=
  ∀ symbol price, market.getPrice symbol = some price → ∃ p : ℚ, price = fin p ∧ 0 < p

/-- The request passes every check with a NaN quantity: both spellings of the symbol are quoted,
the daily loss is fine, and the engine buys or finds a position to sell from. -/
def AcceptsNan (upper : String → String) (account : Account (ExtNum ℚ))
    (call : TradeCall (ExtNum ℚ)) : Prop :=
  call.request.quantity = .nan ∧
    (∃ price, call.market.getPrice call.request.symbol = some price) ∧
    checkDailyLossLimit (.ok (account.dailyRealized call.now)) = true ∧
    (∃ price, call.market.getPrice (upper call.request.symbol) = some price) ∧
    (upper call.request.action = "BUY" ∨
      (account.position? (upper call.request.symbol)).isSome)

section Route

variable {upper : String → String} {account : Account (ExtNum ℚ)} {call : TradeCall (ExtNum ℚ)}

/-- A finite positive quote passes the price check. -/
theorem MarketState.FinitePositive.validPrice?_eq {market : MarketState (ExtNum ℚ)}
    (hmarket : market.FinitePositive) (symbol : String) :
    validPrice? (market.getPrice symbol) = market.getPrice symbol := by
  cases hprice : market.getPrice symbol with
  | none => rfl
  | some price =>
    obtain ⟨p, rfl, hp⟩ := hmarket symbol price hprice
    simp [validPrice?, ExtNum.zero_eq, hp]

/-- The row found for a symbol is a finite row. -/
theorem Account.Finite.position? {P : Position ℚ → Prop} (haccount : account.Finite P)
    (symbol : String) :
    ∃ row : Option (Position ℚ), account.position? symbol = row.map (Position.map fin) ∧
      ∀ position ∈ row, P position := by
  cases hposition : account.position? symbol with
  | none => exact ⟨none, rfl, by simp⟩
  | some position =>
    obtain ⟨row, rfl, hrow⟩ := haccount.positions position (KeyedRows.mem_of_lookup hposition).1
    exact ⟨some row, rfl, by simpa using hrow⟩

/-- A NaN quantity passes all comparisons of the route and the gate. -/
theorem admitted_nan_iff (hmarket : call.market.FinitePositive)
    (hquantity : call.request.quantity = .nan) :
    Admitted account call ↔
      (∃ price, call.market.getPrice call.request.symbol = some price) ∧
        checkDailyLossLimit (.ok (account.dailyRealized call.now)) = true := by
  rw [Admitted, hquantity, hmarket.validPrice?_eq]
  constructor
  · rintro ⟨-, price, hprice, hgate⟩
    exact ⟨⟨price, hprice⟩, ((checkRiskLimits_riskReads ..).mp hgate).1⟩
  · rintro ⟨⟨price, hprice⟩, hloss⟩
    obtain ⟨p, rfl, hp⟩ := hmarket _ price hprice
    refine ⟨ExtNum.not_nan_le _, fin p, hprice, (checkRiskLimits_riskReads ..).mpr ?_⟩
    have hpositive : ¬ fin p ≤ 0 := by simpa [ExtNum.zero_eq] using hp
    -- the limits on the order, on the position and on the exposure
    refine ⟨hloss, ExtNum.not_nan_le _, hpositive, fun _ => ?_, fun _ => ?_, fun _ => ?_⟩
    · rw [ExtNum.add_nan]
      exact ExtNum.not_lt_nan _
    · exact ExtNum.not_lt_nan _
    · rw [ExtNum.nan_mul, ExtNum.add_nan]
      exact ExtNum.not_lt_nan _

/-- When a request with a NaN quantity is admitted and filled. -/
theorem acceptsNan_iff (hmarket : call.market.FinitePositive)
    (hquantity : call.request.quantity = .nan) :
    AcceptsNan upper account call ↔
      Admitted account call ∧ ∃ price fill, Fills upper account call price fill := by
  simp only [AcceptsNan, admitted_nan_iff hmarket hquantity, Fills, hmarket.validPrice?_eq,
    hquantity, exists_and_left, exists_fillOrder_nan_iff, exists_and_right]
  tauto

/-- Recording a finite fill leaves a finite account. -/
theorem Account.Finite.record (haccount : account.Finite Position.Valid)
    {action symbol : String} {quantity price : ℚ} {fill : Fill (ExtNum ℚ)}
    (h : fillOrder action symbol (fin quantity) (fin price) account.balance
      (account.position? symbol) = .ok fill) (hprice : 0 < price) (hquantity : 0 < quantity)
    (trade : Trade (ExtNum ℚ)) : (account.record trade fill).Finite Position.NonNegative := by
  obtain ⟨balance, hbalance, hsolvent⟩ := haccount.balance
  obtain ⟨row, hrow, hvalid⟩ := haccount.position? symbol
  -- on finite inputs the fill is the exact one, so what is known of exact fills applies
  rw [hbalance, hrow, fillOrder_fin] at h
  cases hexact : fillOrder action symbol quantity price balance row with
  | error refusal =>
    rw [hexact] at h
    cases h
  | ok exact =>
    rw [hexact] at h
    cases h
    refine ⟨⟨_, rfl, fillOrder_balance_nonneg hexact hsolvent hprice hquantity⟩, ?_⟩
    intro position hposition
    rcases mem_of_mem_writePosition hposition with hnew | hold
    · obtain ⟨new, hmem, rfl⟩ := Option.mem_map.mp hnew
      have hnew := fillOrder_valid hexact hvalid hprice hquantity new hmem
      exact ⟨new, rfl, hnew.1.le, hnew.2.le⟩
    · obtain ⟨old, rfl, hpositive⟩ := haccount.positions position hold
      exact ⟨old, rfl, hpositive.1.le, hpositive.2.le⟩

/-- A snapshot does not touch the cash and the rows. -/
theorem finite_recordEquitySnapshot {P : Position ℚ → Prop} (market : MarketState (ExtNum ℚ))
    (now : ℤ) : (account.recordEquitySnapshot market now).Finite P ↔ account.Finite P := by
  constructor <;>
    · rintro ⟨hbalance, hpositions⟩
      exact ⟨by simpa using hbalance, by simpa using hpositions⟩

/-- A NaN order that is filled is answered with a success and leaves a NaN balance. -/
theorem not_finite_of_fills_nan {price : ExtNum ℚ} {fill : Fill (ExtNum ℚ)}
    (hnan : call.request.quantity = .nan) (hadmitted : Admitted account call)
    (hfills : Fills upper account call price fill) :
    ¬ ((∃ error, trade upper account call = (.error error, account)) ∨
      (tradeStep upper account call).Finite Position.NonNegative) := by
  have htrade := trade_eq_of_fill hadmitted hfills
  rintro (⟨error, herror⟩ | hfinite)
  · rw [htrade, Prod.mk.injEq] at herror
    exact absurd herror.1 (by simp)
  · obtain ⟨balance, hbalance, -⟩ := hfinite.balance
    rw [tradeStep, htrade, recordEquitySnapshot_balance] at hbalance
    have hfill := hfills.2
    rw [hnan] at hfill
    exact absurd ((fillOrder_nan_balance _ _ hfill).symm.trans hbalance) (by simp)

/-- Any other quantity is refused or leaves a finite account. -/
theorem trade_finite_of_ne_nan (haccount : account.Finite Position.Valid)
    (hmarket : call.market.FinitePositive) (hnan : call.request.quantity ≠ .nan) :
    (∃ error, trade upper account call = (.error error, account)) ∨
      (tradeStep upper account call).Finite Position.NonNegative := by
  rcases trade_cases upper account call with hrefused | ⟨hadmitted, price, fill, hfills⟩
  · exact Or.inl hrefused
  have hquote := hfills.1
  rw [hmarket.validPrice?_eq] at hquote
  obtain ⟨p, rfl, hp⟩ := hmarket _ price hquote
  have hpositive := hadmitted.1
  have hfill := hfills.2
  cases hquantity : call.request.quantity with
  | nan => exact absurd hquantity hnan
  | inf negative =>
    rw [hquantity] at hfill hpositive
    obtain ⟨balance, hbalance, -⟩ := haccount.balance
    obtain ⟨row, hrow, -⟩ := haccount.position? (upper call.request.symbol)
    -- minus infinity fails the check for a positive quantity
    obtain rfl : negative = false := by simpa [ExtNum.zero_eq] using hpositive
    rw [hbalance, hrow] at hfill
    exact absurd hfill (fillOrder_inf _ _ p balance row hp fill)
  | fin quantity =>
    rw [hquantity] at hfill hpositive
    have hquantity : 0 < quantity := by simpa [ExtNum.zero_eq] using hpositive
    rw [tradeStep, trade_eq_of_fill hadmitted hfills]
    exact Or.inr ((finite_recordEquitySnapshot _ _).mpr
      (haccount.record hfill hp hquantity _))

/-- A finite account stays finite and not negative, or the request is refused, exactly when the
request is not a NaN quantity that passes every check. -/
theorem trade_finite_iff (upper : String → String) (account : Account (ExtNum ℚ))
    (call : TradeCall (ExtNum ℚ)) (haccount : account.Finite Position.Valid)
    (hmarket : call.market.FinitePositive) :
    ((∃ error, trade upper account call = (.error error, account)) ∨
      (tradeStep upper account call).Finite Position.NonNegative) ↔
    ¬ AcceptsNan upper account call := by
  by_cases hnan : call.request.quantity = .nan
  · rw [acceptsNan_iff hmarket hnan]
    constructor
    · rintro hresult ⟨hadmitted, price, fill, hfills⟩
      exact not_finite_of_fills_nan hnan hadmitted hfills hresult
    · intro hrefused
      exact Or.inl ((trade_cases upper account call).resolve_right hrefused)
  · -- the condition is about NaN only
    refine iff_of_true ?_ fun haccepts => hnan haccepts.1
    exact trade_finite_of_ne_nan haccount hmarket hnan

end Route

/-! ### An order that corrupts the account -/

/-- An order to buy shares quoted at 100. -/
def buyOrder (quantity : ExtNum ℚ) : TradeCall (ExtNum ℚ) where
  market := .ofQuotes [("AAPL", fin 100)]
  now := 0
  request := { symbol := "AAPL", action := "BUY", quantity }
  stamp := ⟨1, 0⟩

/-- An order for infinitely many shares is refused. -/
theorem trade_finite_infBuy :
    (∃ error, trade String.toUpper (Account.opened (fin 100000)) (buyOrder (.inf false)) =
        (.error error, Account.opened (fin 100000))) ∨
      (tradeStep String.toUpper (Account.opened (fin 100000)) (buyOrder (.inf false))).Finite
        Position.NonNegative := by
  have haccount : (Account.opened (fin (100000 : ℚ))).Finite Position.Valid :=
    ⟨⟨100000, rfl, by norm_num⟩, by simp [Account.opened]⟩
  have hmarket : (buyOrder (.inf false)).market.FinitePositive := by
    intro symbol price hprice
    obtain ⟨before, after, hquotes, -⟩ := List.lookup_eq_some_iff.mp hprice
    have hmem : (symbol, price) ∈ [("AAPL", fin (100 : ℚ))] := by simp [hquotes]
    exact ⟨100, (Prod.ext_iff.mp (List.mem_singleton.mp hmem)).2, by norm_num⟩
  exact (trade_finite_iff String.toUpper _ (buyOrder (.inf false)) haccount hmarket).mpr
    fun haccepts => nomatch haccepts.1

/-- A buy of NaN shares is filled and leaves a NaN balance. -/
theorem nanBuy_corrupts :
    ¬ ((∃ error, trade String.toUpper (Account.opened (fin 100000)) (buyOrder .nan) =
        (.error error, Account.opened (fin 100000))) ∨
      (tradeStep String.toUpper (Account.opened (fin 100000)) (buyOrder .nan)).Finite
        Position.NonNegative) := by
  rintro (⟨error, herror⟩ | hfinite)
  · have hok :
        (trade String.toUpper (Account.opened (fin 100000)) (buyOrder .nan)).1.isOk = true := by
      decide +kernel
    rw [herror] at hok
    cases hok
  · have hnan : (tradeStep String.toUpper (Account.opened (fin 100000)) (buyOrder .nan)).balance =
        .nan := by
      decide +kernel
    obtain ⟨balance, hbalance, -⟩ := hfinite.balance
    exact absurd (hnan.symm.trans hbalance) (by simp)

end TradingSimulator
