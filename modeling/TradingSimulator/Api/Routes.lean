import TradingSimulator.Portfolio.EquityEngine
import TradingSimulator.Risk.RiskEngine

/-!
# Trading routes

The handlers `POST /trades` and `POST /account/reset` (`app/api/routes.py`) for an authenticated
user. `tradeMoving` reads one quote for the symbol as it was sent and passes it to the risk gate,
then lets `executeTrade` read the quote of the upper-case symbol; the quotes may move between its
reads. In `trade` all reads see the same `market`.

`tradeMoving_cases` and `trade_cases` say when a request is filled, `tradeMoving_eq_of_fill` and
`trade_eq_of_fill` what it writes then.
-/

namespace TradingSimulator

/-- One request of a run: the body, the quotes and the clock at its time, and the generated fields
of the trade it may record. -/
structure TradeCall (α : Type) where
  market : MarketState α
  now : ℤ
  request : ExecuteTradeRequest α
  stamp : RowStamp

section Routes

variable {α : Type} [Add α] [Sub α] [Mul α] [Div α] [Neg α] [Zero α] [NatCast α] [BEq α]
  [LT α] [LE α] [DecidableLT α] [DecidableLE α]

/-- `POST /account/reset`, with `default_user_balance` from the settings. -/
def resetAccount (defaultUserBalance : α) (account : Account α) : Account α :=
  { account with
    balance := defaultUserBalance, positions := [], trades := [], equityHistory := [] }

/-- `POST /trades` while the quotes move: the route reads those of the call, the engine `executed`
and the snapshot `marked`. -/
def tradeMoving (upper : String → String) (account : Account α) (call : TradeCall α)
    (executed marked : MarketState α) : Except HttpError (TradeResult α) × Account α :=
  let request := call.request
  if request.quantity ≤ 0 then (.error ⟨400, "Invalid quantity"⟩, account)
  else
    match validPrice? (call.market.getPrice request.symbol) with
    | none => (.error ⟨400, "Invalid market price"⟩, account)
    | some price =>
      -- the gate gets the symbol and the action as they were sent
      if checkRiskLimits (account.riskReads request.symbol call.now) request.action
          request.quantity price = false then
        (.error ⟨400, "Risk limit exceeded"⟩, account)
      else
        match executeTrade upper executed (some account) request call.stamp with
        | (.ok (.success trade status balance), user) =>
          -- the snapshot is taken after the commit of the trade
          (.ok (.success trade status balance),
            (user.getD account).recordEquitySnapshot marked call.now)
        | (.ok (.failure error), _) => (.error ⟨400, error⟩, account)
        -- an exception of the engine leaves the transaction uncommitted
        | (.error _, _) => (.error ⟨500, "Internal server error"⟩, account)

/-- `POST /trades` on one set of quotes. -/
def trade (upper : String → String) (account : Account α) (call : TradeCall α) :
    Except HttpError (TradeResult α) × Account α :=
  tradeMoving upper account call call.market call.market

/-- The account after a request. -/
def tradeStep (upper : String → String) (account : Account α) (call : TradeCall α) : Account α :=
  (trade upper account call).2

/-- The checks of the route and of the gate, all made on the request as it was sent. -/
def Admitted (account : Account α) (call : TradeCall α) : Prop :=
  ¬ call.request.quantity ≤ 0 ∧
    ∃ price, validPrice? (call.market.getPrice call.request.symbol) = some price ∧
      checkRiskLimits (account.riskReads call.request.symbol call.now) call.request.action
        call.request.quantity price = true

/-- The engine finds a valid quote for the upper-case symbol and its branch computes `fill`. -/
def Fills (upper : String → String) (account : Account α) (call : TradeCall α) (price : α)
    (fill : Fill α) : Prop :=
  validPrice? (call.market.getPrice (upper call.request.symbol)) = some price ∧
    fillOrder (upper call.request.action) (upper call.request.symbol) call.request.quantity price
      account.balance (account.position? (upper call.request.symbol)) = .ok fill

/-- The trade recorded for a fill. -/
def TradeCall.toTrade (upper : String → String) (call : TradeCall α) (price : α) (fill : Fill α) :
    Trade α :=
  fill.toTrade (upper call.request.symbol) (upper call.request.action) call.request.quantity price
    call.stamp

section Moving

variable {upper : String → String} {account : Account α} {call : TradeCall α}
  {executed marked : MarketState α}

/-- An admitted request that the engine fills at its quotes is answered with the trade and
recorded. -/
theorem tradeMoving_eq_of_fill {price : α} {fill : Fill α} (hadmitted : Admitted account call)
    (hfills : Fills upper account { call with market := executed } price fill) :
    tradeMoving upper account call executed marked =
      (.ok (.success (call.toTrade upper price fill) "FILLED" fill.balance),
        (account.record (call.toTrade upper price fill) fill).recordEquitySnapshot marked
          call.now) := by
  obtain ⟨hquantity, gatePrice, hgatePrice, hgate⟩ := hadmitted
  have hexecute : executeTrade upper executed (some account) call.request call.stamp =
      (.ok (.success (call.toTrade upper price fill) "FILLED" fill.balance),
        some (account.record (call.toTrade upper price fill) fill)) := by
    simp only [executeTrade, hfills.1, hfills.2, TradeCall.toTrade]
  simp only [tradeMoving, hquantity, hgatePrice, hgate, hexecute, ↓reduceIte, Bool.true_eq_false,
    Option.getD_some]

variable (upper account call executed marked) in
/-- A request is refused and changes nothing, or it was admitted and the engine filled it at its
quotes. -/
theorem tradeMoving_cases :
    (∃ error, tradeMoving upper account call executed marked = (.error error, account)) ∨
      Admitted account call ∧
        ∃ price fill, Fills upper account { call with market := executed } price fill := by
  -- in the order of the checks
  by_cases hquantity : call.request.quantity ≤ 0
  · exact Or.inl ⟨_, if_pos hquantity⟩
  cases hgatePrice : validPrice? (call.market.getPrice call.request.symbol) with
  | none => exact Or.inl ⟨_, by simp only [tradeMoving, hquantity, hgatePrice, ↓reduceIte]; rfl⟩
  | some gatePrice =>
    cases hgate : checkRiskLimits (account.riskReads call.request.symbol call.now)
        call.request.action call.request.quantity gatePrice with
    | false =>
      exact Or.inl ⟨_, by
        simp only [tradeMoving, hquantity, hgatePrice, hgate, ↓reduceIte]; rfl⟩
    | true =>
      obtain ⟨response, hexecute, hresponse⟩ | ⟨price, fill, -, hprice, hfill, -, -⟩ :=
        executeTrade_cases upper executed account call.request call.stamp
      · -- the engine has failed or raised, and the route answers with an error
        left
        simp only [tradeMoving, hquantity, hgatePrice, hgate, hexecute, ↓reduceIte,
          Bool.true_eq_false]
        match response, hresponse with
        | .error _, _ => exact ⟨_, rfl⟩
        | .ok (.failure error), _ => exact ⟨_, rfl⟩
        | .ok (.success trade status balance), h => exact absurd rfl (h trade status balance)
      · exact Or.inr ⟨⟨hquantity, gatePrice, hgatePrice, hgate⟩, price, fill, hprice, hfill⟩

/-- A request that is answered with a trade has added it to the account. -/
theorem trades_of_tradeMoving {trade : Trade α} {status : String} {balance : α}
    {recorded : Account α} (h : tradeMoving upper account call executed marked =
      (.ok (.success trade status balance), recorded)) :
    recorded.trades = account.trades ++ [trade] := by
  rcases tradeMoving_cases upper account call executed marked with
    ⟨error, hrefused⟩ | ⟨hadmitted, price, fill, hfills⟩
  · rw [hrefused] at h
    cases h
  · rw [tradeMoving_eq_of_fill hadmitted hfills] at h
    cases h
    rw [recordEquitySnapshot_trades, Account.record]

end Moving

/-- An admitted request that the engine fills is answered with the trade and recorded. -/
theorem trade_eq_of_fill {upper : String → String} {account : Account α} {call : TradeCall α}
    {price : α} {fill : Fill α} (hadmitted : Admitted account call)
    (hfills : Fills upper account call price fill) :
    trade upper account call =
      (.ok (.success (call.toTrade upper price fill) "FILLED" fill.balance),
        (account.record (call.toTrade upper price fill) fill).recordEquitySnapshot call.market
          call.now) :=
  tradeMoving_eq_of_fill hadmitted hfills

/-- A request is refused and changes nothing, or it was admitted and the engine filled it. -/
theorem trade_cases (upper : String → String) (account : Account α) (call : TradeCall α) :
    (∃ error, trade upper account call = (.error error, account)) ∨
      Admitted account call ∧ ∃ price fill, Fills upper account call price fill :=
  tradeMoving_cases upper account call call.market call.market

/-- The rows a request leaves: the same, or those of a recorded fill. -/
theorem tradeStep_cases (upper : String → String) (account : Account α) (call : TradeCall α) :
    tradeStep upper account call = account ∨
      Admitted account call ∧ ∃ price fill, Fills upper account call price fill ∧
        tradeStep upper account call =
          (account.record (call.toTrade upper price fill) fill).recordEquitySnapshot call.market
            call.now := by
  rcases trade_cases upper account call with ⟨error, h⟩ | ⟨hadmitted, price, fill, hfills⟩
  · exact Or.inl (congrArg Prod.snd h)
  · exact Or.inr ⟨hadmitted, price, fill, hfills,
      congrArg Prod.snd (trade_eq_of_fill hadmitted hfills)⟩

end Routes

end TradingSimulator
