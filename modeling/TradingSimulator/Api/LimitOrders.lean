import TradingSimulator.Api.Routes

/-!
# Are limit orders filled within their limit?

The order ticket of the frontend (`frontend/src/components/trading/OrderTicket.jsx`) sends a limit
order with its `order_type` and `limit_price`, and the request body has fields for both. Neither
the route nor the engine reads them (`tradeMoving_ignores_limit`): a limit order is filled like a
market order, at the quote the engine finds. `respectsLimit_iff` says when this is within the limit.
-/

namespace TradingSimulator

/-! ### The order ticket -/

/-- What the user has entered, the numbers as JavaScript's `Number` reads them: `none` where this
is `NaN`. -/
structure OrderTicket where
  symbol : String
  side : String := "BUY"
  qty : Option ℚ := some 1
  orderType : String := "MARKET"
  limitPrice : Option ℚ := some 0

/-- The properties the ticket is given by its parent. -/
structure OrderTicketProps where
  livePrice : ℚ
  buyingPower : ℚ
  sharesOwned : ℚ

namespace OrderTicket

/-- A limit price has been entered. -/
def limit? (ticket : OrderTicket) : Option ℚ := ticket.limitPrice.filter fun limit => 0 < limit

/-- The price the cost is estimated at. -/
def refPrice (ticket : OrderTicket) (props : OrderTicketProps) : ℚ :=
  if ticket.orderType = "LIMIT" then ticket.limit?.getD props.livePrice else props.livePrice

/-- `validationError`. -/
def validationError (ticket : OrderTicket) (props : OrderTicketProps) : Option String :=
  if ticket.symbol = "" then some "Select a symbol"
  else
    match ticket.qty.filter fun qty => 0 < qty with
    | none => some "Enter a quantity"
    | some qty =>
      let estimated := qty * ticket.refPrice props
      if ticket.orderType = "LIMIT" ∧ ticket.limit? = none then some "Enter a limit price"
      else if ticket.side = "BUY" ∧ props.buyingPower < estimated then
        some "Insufficient buying power"
      else if ticket.side ≠ "BUY" ∧ props.sharesOwned < qty then some "Not enough shares to sell"
      else none

/-- The request `submit` sends. -/
def request (ticket : OrderTicket) : ExecuteTradeRequest ℚ where
  symbol := ticket.symbol
  action := ticket.side
  quantity := ticket.qty.getD 0
  orderType := ticket.orderType
  limitPrice := if ticket.orderType = "LIMIT" then ticket.limitPrice else none

/-- `submit`, from the error message or the request. -/
def submit (ticket : OrderTicket) (props : OrderTicketProps) :
    Except String (ExecuteTradeRequest ℚ) :=
  match ticket.validationError props with
  | some error => .error error
  | none => .ok ticket.request

end OrderTicket

/-! ### Limits of requests -/

section Limit

variable {α : Type} [Add α] [Sub α] [Mul α] [Div α] [Neg α] [Zero α] [NatCast α] [BEq α]
  [LT α] [LE α] [DecidableLT α] [DecidableLE α]

/-- The limit of a request of type `LIMIT` with a positive limit price. -/
def ExecuteTradeRequest.limit? (request : ExecuteTradeRequest α) : Option α :=
  if request.orderType = "LIMIT" then request.limitPrice.filter fun limit => 0 < limit else none

/-- A price is not worse than a limit: not above it for a `BUY`, not below it for a `SELL`. -/
def WithinLimit (action : String) (limit price : α) : Prop :=
  (action = "BUY" → price ≤ limit) ∧ (action = "SELL" → limit ≤ price)

/-- Whatever trade the request records is within its limit. -/
def RespectsLimit (upper : String → String) (account : Account α) (call : TradeCall α)
    (executed marked : MarketState α) : Prop :=
  ∀ limit ∈ call.request.limit?, ∀ trade,
    (tradeMoving upper account call executed marked).2.trades = account.trades ++ [trade] →
      WithinLimit trade.action limit trade.price

/-- The route does not look at the order type and the limit price. -/
theorem tradeMoving_ignores_limit (upper : String → String) (account : Account α)
    (call : TradeCall α) (executed marked : MarketState α) (orderType : String)
    (limitPrice : Option α) :
    tradeMoving upper account
        { call with request := { call.request with orderType, limitPrice } } executed marked =
      tradeMoving upper account call executed marked := rfl

/-- Within its limit is what is recorded exactly when the request is refused, or the quote that
the engine reads is within the limit. -/
theorem respectsLimit_iff (upper : String → String) (account : Account α) (call : TradeCall α)
    (executed marked : MarketState α) :
    RespectsLimit upper account call executed marked ↔
      ∀ limit ∈ call.request.limit?, Admitted account call → ∀ price,
        validPrice? (executed.getPrice (upper call.request.symbol)) = some price →
        Covered (upper call.request.action) call.request.quantity price account.balance
          (account.position? (upper call.request.symbol)) →
        WithinLimit (upper call.request.action) limit price := by
  constructor
  · intro h limit hlimit hadmitted price hprice hcovered
    obtain ⟨fill, hfill⟩ := (exists_fillOrder_ok_iff_covered _ _ _ _ _ _).mpr hcovered
    refine h limit hlimit (call.toTrade upper price fill) ?_
    rw [tradeMoving_eq_of_fill hadmitted ⟨hprice, hfill⟩]
    simp [Account.record]
  · intro h limit hlimit trade hrecorded
    rcases tradeMoving_cases upper account call executed marked with
      ⟨error, hrefused⟩ | ⟨hadmitted, price, fill, hfills⟩
    · -- a refused request records nothing
      rw [hrefused] at hrecorded
      simp at hrecorded
    · rw [tradeMoving_eq_of_fill hadmitted hfills] at hrecorded
      simp only [recordEquitySnapshot_trades, Account.record, List.append_cancel_left_eq,
        List.cons.injEq, and_true] at hrecorded
      rw [← hrecorded]
      exact h limit hlimit hadmitted price hfills.1
        ((exists_fillOrder_ok_iff_covered _ _ _ _ _ _).mp ⟨fill, hfills.2⟩)

end Limit

/-- A limit order that the ticket submits is a request with the limit that was entered. -/
theorem OrderTicket.limit?_of_submit {ticket : OrderTicket} {props : OrderTicketProps}
    {request : ExecuteTradeRequest ℚ} (h : ticket.submit props = .ok request)
    (htype : ticket.orderType = "LIMIT") :
    ∃ limit, 0 < limit ∧ ticket.limitPrice = some limit ∧ request.limit? = some limit := by
  rw [OrderTicket.submit] at h
  split at h
  · cases h
  · next hvalid =>
    cases h
    -- the ticket has been checked for a limit price
    have hentered : ticket.limit? ≠ none := by
      intro hnone
      rw [OrderTicket.validationError] at hvalid
      split at hvalid
      · cases hvalid
      split at hvalid
      · cases hvalid
      · rw [if_pos ⟨htype, hnone⟩] at hvalid
        cases hvalid
    obtain ⟨limit, hlimit⟩ := Option.ne_none_iff_exists'.mp hentered
    obtain ⟨hprice, hpos⟩ := Option.filter_eq_some_iff.mp hlimit
    refine ⟨limit, by simpa using hpos, hprice, ?_⟩
    simp only [ExecuteTradeRequest.limit?, OrderTicket.request, htype, ↓reduceIte]
    exact hlimit

/-- A limit order for ten shares at no more than 50. -/
def buyBelowFifty : OrderTicket where
  symbol := "AAPL"
  qty := some 10
  orderType := "LIMIT"
  limitPrice := some 50

/-- The order comes while the share is quoted at 100. -/
def buyBelowFiftyCall : TradeCall ℚ where
  market := MarketState.ofQuotes [("AAPL", 100)]
  now := 0
  request := buyBelowFifty.request
  stamp := ⟨1, 0⟩

/-- The order is filled at the quote above its limit. -/
theorem buyBelowFifty_not_respectsLimit :
    ¬ RespectsLimit String.toUpper (Account.opened 100000) buyBelowFiftyCall
      buyBelowFiftyCall.market buyBelowFiftyCall.market := by
  intro h
  -- the order is filled at 100
  have hwithin := h 50 (by decide +kernel) ⟨1, "AAPL", "BUY", 10, 100, none, 0⟩ (by decide +kernel)
  have hprice : (100 : ℚ) ≤ 50 := hwithin.1 rfl
  norm_num at hprice

example : buyBelowFifty.submit ⟨100, 100000, 0⟩ = .ok buyBelowFiftyCall.request := by
  decide +kernel

end TradingSimulator
