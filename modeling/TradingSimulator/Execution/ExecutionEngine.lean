import Mathlib.Algebra.Order.Field.Rat
import Mathlib.Tactic.Linarith
import TradingSimulator.Library.AverageCost
import TradingSimulator.Market.MarketState
import TradingSimulator.Models

/-!
# Order execution

`execute_trade` (`app/execution/execution_engine.py`) and what one call of it can do.

The two branches of the function are `buyFill` and `sellFill`: from the cash balance and the
position row they compute the new balance, the new row (or its deletion) and the realized P&L.
`executeTrade` wraps them with the price check and the trade record. Python's `str.upper` is the
parameter `upper`.

`executeTrade_cases` is the only place where `executeTrade` is unfolded. The `Fill` lemmas say
what a fill does to the quantity held, to the cash and to the book cost, whichever branch it came
from, and the `Account.record` lemmas carry this over to the account.
-/

namespace TradingSimulator

/-! ### The engine -/

section Engine

variable {α : Type} [Add α] [Sub α] [Mul α] [Div α] [Zero α] [BEq α]
  [LT α] [LE α] [DecidableLT α] [DecidableLE α]

/-- An exception that leaves the engine. -/
inductive PyError where
  | zeroDivision
  deriving DecidableEq

/-- The ways an order ends without being filled: a `success = False` result with its message, or
an exception. -/
inductive Refusal where
  | failure (error : String)
  | raised (error : PyError)
  deriving DecidableEq

/-- The result dictionary of `execute_trade`; on success it repeats the recorded trade. -/
inductive TradeResult (α : Type) where
  | failure (error : String)
  | success (trade : Trade α) (status : String) (balance : α)
  deriving DecidableEq

/-- The fields the database generates for a new row. -/
structure RowStamp where
  id : ℕ
  timestamp : ℤ
  deriving DecidableEq

/-- What an order writes: the cash balance, the position row (`none` when it is deleted) and the
realized P&L of the trade. -/
structure Fill (α : Type) where
  balance : α
  position : Option (Position α)
  realizedPnl : Option α
  deriving DecidableEq

/-- The `BUY` branch. -/
def buyFill (symbol : String) (quantity price balance : α) (position : Option (Position α)) :
    Except Refusal (Fill α) :=
  let totalValue := price * quantity
  if balance < totalValue then .error (.failure "Insufficient balance")
  else
    match position with
    | some position =>
      let newQty := position.quantity + quantity
      -- Python raises on a zero divisor where `/` of a field would give zero
      if newQty == 0 then .error (.raised .zeroDivision)
      else
        .ok
          { balance := balance - totalValue
            position := some
              { position with
                quantity := newQty
                avgPrice := (position.quantity * position.avgPrice + quantity * price) / newQty }
            realizedPnl := none }
    | none =>
      .ok
        { balance := balance - totalValue
          position := some { symbol, quantity, avgPrice := price }
          realizedPnl := none }

/-- The branch of every action other than `BUY`. -/
def sellFill (quantity price balance : α) (position : Option (Position α)) :
    Except Refusal (Fill α) :=
  match position with
  | none => .error (.failure "Not enough shares")
  | some position =>
    if position.quantity < quantity then .error (.failure "Not enough shares")
    else
      let remaining := position.quantity - quantity
      -- a position that is sold out is deleted, the average price of the rest stays
      .ok
        { balance := balance + price * quantity
          position := if remaining == 0 then none else some { position with quantity := remaining }
          realizedPnl := some ((price - position.avgPrice) * quantity) }

/-- The branch the engine takes for an upper-case action. -/
def fillOrder (action symbol : String) (quantity price balance : α)
    (position : Option (Position α)) : Except Refusal (Fill α) :=
  if action = "BUY" then buyFill symbol quantity price balance position
  else sellFill quantity price balance position

/-- What the branches ask of the rows of the user: a `BUY` needs the cash, and must not bring the
position to zero, every other action needs the shares. -/
def Covered (action : String) (quantity price balance : α) (position : Option (Position α)) :
    Prop :=
  if action = "BUY" then
    ¬ balance < price * quantity ∧ ∀ old ∈ position, ¬ (old.quantity + quantity == 0) = true
  else ∃ old ∈ position, ¬ old.quantity < quantity

/-- The price check `price is None or price <= 0` of the engine and of the route. -/
def validPrice? (price : Option α) : Option α :=
  price.filter fun price => !decide (price ≤ 0)

/-- Write the position row of `symbol`: insert or update it, or delete it. -/
def writePosition (symbol : String) (row : Option (Position α)) (positions : List (Position α)) :
    List (Position α) :=
  match row with
  | some row => KeyedRows.put Position.symbol row positions
  | none => KeyedRows.erase Position.symbol symbol positions

/-- The rows an order writes in its single commit. -/
def Account.record (account : Account α) (trade : Trade α) (fill : Fill α) : Account α :=
  { account with
    balance := fill.balance
    positions := writePosition trade.symbol fill.position account.positions
    trades := account.trades ++ [trade] }

/-- The `trades` row of a filled order. -/
def Fill.toTrade (fill : Fill α) (symbol action : String) (quantity price : α) (stamp : RowStamp) :
    Trade α :=
  { id := stamp.id, symbol, action, quantity, price, realizedPnl := fill.realizedPnl,
    timestamp := stamp.timestamp }

/-- `execute_trade` for the user whose rows are `user` (`none` when there is no such user), with
the rows it leaves behind. -/
def executeTrade (upper : String → String) (market : MarketState α) (user : Option (Account α))
    (request : ExecuteTradeRequest α) (stamp : RowStamp) :
    Except PyError (TradeResult α) × Option (Account α) :=
  let symbol := upper request.symbol
  let action := upper request.action
  match user with
  | none => (.ok (.failure "User not found"), none)
  | some account =>
    match validPrice? (market.getPrice symbol) with
    | none => (.ok (.failure "Invalid market price"), some account)
    | some price =>
      match fillOrder action symbol request.quantity price account.balance
          (account.position? symbol) with
      | .error (.failure error) => (.ok (.failure error), some account)
      | .error (.raised error) => (.error error, some account)
      | .ok fill =>
        -- one commit writes the balance, the position row and the trade
        let trade := fill.toTrade symbol action request.quantity price stamp
        (.ok (.success trade "FILLED" fill.balance), some (account.record trade fill))

omit [LE α] [DecidableLE α] in
/-- An order is filled when its branch finds what it asks for. -/
theorem exists_fillOrder_ok_iff_covered (action symbol : String) (quantity price balance : α)
    (position : Option (Position α)) :
    (∃ fill, fillOrder action symbol quantity price balance position = .ok fill) ↔
      Covered action quantity price balance position := by
  by_cases haction : action = "BUY"
  · rw [fillOrder, if_pos haction, Covered, if_pos haction]
    -- a purchase asks for cash only
    by_cases hcash : balance < price * quantity
    · simp [buyFill, hcash]
    cases position with
    | none => simp [buyFill, hcash]
    | some old =>
      by_cases hzero : (old.quantity + quantity == 0) = true
      · simp [buyFill, hcash, hzero]
      · simp [buyFill, hcash, hzero]
  · rw [fillOrder, if_neg haction, Covered, if_neg haction]
    cases position with
    | none => simp [sellFill]
    | some old =>
      -- anything else is a sale, and asks for shares
      by_cases hshares : old.quantity < quantity
      · simp [sellFill, hshares]
      · simp [sellFill, hshares]

/-- A call of `execute_trade` on an existing user either fails or raises and writes nothing, or
records the fill that its branch computed at a valid price. -/
theorem executeTrade_cases (upper : String → String) (market : MarketState α)
    (account : Account α) (request : ExecuteTradeRequest α) (stamp : RowStamp) :
    (∃ response, executeTrade upper market (some account) request stamp =
        (response, some account) ∧
      ∀ trade status balance, response ≠ .ok (.success trade status balance)) ∨
    ∃ price fill trade, validPrice? (market.getPrice (upper request.symbol)) = some price ∧
      fillOrder (upper request.action) (upper request.symbol) request.quantity price
        account.balance (account.position? (upper request.symbol)) = .ok fill ∧
      trade = fill.toTrade (upper request.symbol) (upper request.action) request.quantity price
        stamp ∧
      executeTrade upper market (some account) request stamp =
        (.ok (.success trade "FILLED" fill.balance), some (account.record trade fill)) := by
  cases hprice : validPrice? (market.getPrice (upper request.symbol)) with
  | none =>
    -- every early return stands before the first write
    refine Or.inl ⟨.ok (.failure "Invalid market price"), ?_, by simp⟩
    simp only [executeTrade, hprice]
  | some price =>
    cases hfill : fillOrder (upper request.action) (upper request.symbol) request.quantity price
        account.balance (account.position? (upper request.symbol)) with
    | error refusal =>
      cases refusal with
      | failure error =>
        refine Or.inl ⟨.ok (.failure error), ?_, by simp⟩
        simp only [executeTrade, hprice, hfill]
      | raised error =>
        refine Or.inl ⟨.error error, ?_, by simp⟩
        simp only [executeTrade, hprice, hfill]
    | ok fill =>
      refine Or.inr ⟨price, fill, _, rfl, hfill, rfl, ?_⟩
      simp only [executeTrade, hprice, hfill]

end Engine

/-! ### Fills over exact rationals -/

/-- The quantity of a position row, zero when there is none. -/
def heldQuantity (position : Option (Position ℚ)) : ℚ :=
  (position.map Position.quantity).getD 0

/-- A position as a pool of units at average cost. -/
def Position.pool (position : Position ℚ) : CostPool ℚ :=
  { units := position.quantity, unitCost := position.avgPrice }

/-- What the units of a position cost at their average price. -/
def Position.cost (position : Position ℚ) : ℚ := position.quantity * position.avgPrice

/-- The book cost of a position row, zero when there is none. -/
def heldCost (position : Option (Position ℚ)) : ℚ :=
  (position.map Position.cost).getD 0

/-- A row the engine may keep: something is held, at a positive average price. -/
def Position.Valid (position : Position ℚ) : Prop :=
  0 < position.quantity ∧ 0 < position.avgPrice

/-- The quantity an action adds to the position: every action other than `BUY` removes. -/
def signedQuantity (action : String) (quantity : ℚ) : ℚ :=
  if action = "BUY" then quantity else -quantity

@[simp] theorem heldQuantity_none : heldQuantity none = 0 := rfl

@[simp] theorem heldQuantity_some (position : Position ℚ) :
    heldQuantity (some position) = position.quantity := rfl

@[simp] theorem heldCost_none : heldCost none = 0 := rfl

@[simp] theorem heldCost_some (position : Position ℚ) :
    heldCost (some position) = position.cost := rfl

@[simp] theorem Position.pool_cost (position : Position ℚ) :
    position.pool.cost = position.cost := rfl

theorem validPrice?_eq_some_iff {price : Option ℚ} {p : ℚ} :
    validPrice? price = some p ↔ price = some p ∧ 0 < p := by
  simp [validPrice?, Option.filter_eq_some_iff]

section Fill

variable {symbol action : String} {quantity price balance : ℚ} {position : Option (Position ℚ)}
  {fill : Fill ℚ}

/-- A buy is filled when the cash covers it: a new row at the market price, or the old row
re-averaged. -/
theorem buyFill_ok (h : buyFill symbol quantity price balance position = .ok fill) :
    price * quantity ≤ balance ∧ fill.balance = balance - price * quantity ∧
      fill.realizedPnl = none ∧
      ((position = none ∧ fill.position = some ⟨symbol, quantity, price⟩) ∨
        ∃ old row, position = some old ∧ fill.position = some row ∧ row.symbol = old.symbol ∧
          old.quantity + quantity ≠ 0 ∧ row.pool = old.pool.add quantity price) := by
  cases position with
  | none =>
    simp only [buyFill] at h
    split at h
    · cases h
    · next hcash =>
      cases h
      exact ⟨not_lt.mp hcash, rfl, rfl, Or.inl ⟨rfl, rfl⟩⟩
  | some old =>
    simp only [buyFill, beq_iff_eq] at h
    split at h
    · cases h
    · next hcash =>
      split at h
      · cases h
      · next hne =>
        cases h
        exact ⟨not_lt.mp hcash, rfl, rfl, Or.inr ⟨old, _, rfl, rfl, rfl, hne, rfl⟩⟩

/-- A sale is filled when the row holds enough: the row is reduced, or deleted at zero. -/
theorem sellFill_ok (h : sellFill quantity price balance position = .ok fill) :
    ∃ old, position = some old ∧ quantity ≤ old.quantity ∧
      fill.balance = balance + price * quantity ∧
      fill.realizedPnl = some (old.pool.gain quantity price) ∧
      ((old.quantity = quantity ∧ fill.position = none) ∨
        ∃ row, quantity < old.quantity ∧ fill.position = some row ∧ row.symbol = old.symbol ∧
          row.pool = old.pool.remove quantity) := by
  cases position with
  | none => cases h
  | some old =>
    simp only [sellFill, beq_iff_eq] at h
    split at h
    · cases h
    · next hshares =>
      rw [not_lt] at hshares
      cases h
      refine ⟨old, rfl, hshares, rfl, rfl, ?_⟩
      by_cases hzero : old.quantity - quantity = 0
      · exact Or.inl ⟨sub_eq_zero.mp hzero, if_pos hzero⟩
      · have hne : quantity ≠ old.quantity := fun heq => hzero (by rw [heq, sub_self])
        exact Or.inr ⟨_, lt_of_le_of_ne hshares hne, if_neg hzero, rfl, rfl⟩

/-- The branches of a filled order. -/
theorem fillOrder_ok (h : fillOrder action symbol quantity price balance position = .ok fill) :
    (action = "BUY" ∧ buyFill symbol quantity price balance position = .ok fill) ∨
      (action ≠ "BUY" ∧ sellFill quantity price balance position = .ok fill) := by
  rw [fillOrder] at h
  split at h
  · next haction => exact Or.inl ⟨haction, h⟩
  · next haction => exact Or.inr ⟨haction, h⟩

/-- A buy is filled when the cash covers it, every other action when enough is held. -/
theorem exists_fillOrder_ok_iff (hposition : ∀ old ∈ position, 0 < old.quantity)
    (hquantity : 0 < quantity) :
    (∃ fill, fillOrder action symbol quantity price balance position = .ok fill) ↔
      (action = "BUY" ∧ price * quantity ≤ balance) ∨
        (action ≠ "BUY" ∧ ∃ old, position = some old ∧ quantity ≤ old.quantity) := by
  rw [exists_fillOrder_ok_iff_covered, Covered]
  -- the divisor of the new average is positive, so a covered buy does not raise
  have hdivisor : ∀ old ∈ position, ¬ (old.quantity + quantity == 0) = true := by
    intro old hold
    simpa using (add_pos (hposition old hold) hquantity).ne'
  by_cases haction : action = "BUY"
  · simp only [haction, ↓reduceIte, not_lt, true_and, ne_eq, not_true_eq_false, false_and, or_false]
    exact and_iff_left hdivisor
  · simp [haction]

/-- A fill moves the quantity held by the signed quantity of its action. -/
theorem fillOrder_heldQuantity
    (h : fillOrder action symbol quantity price balance position = .ok fill) :
    heldQuantity fill.position = heldQuantity position + signedQuantity action quantity := by
  rcases fillOrder_ok h with ⟨haction, hbuy⟩ | ⟨haction, hsell⟩
  · obtain ⟨-, -, -, ⟨rfl, hrow⟩ | ⟨old, row, rfl, hrow, -, -, hpool⟩⟩ := buyFill_ok hbuy
    · simp [hrow, signedQuantity, haction]
    · have hunits := congrArg CostPool.units hpool
      simpa [hrow, signedQuantity, haction, Position.pool, CostPool.add] using hunits
  · obtain ⟨old, rfl, -, -, -, ⟨hall, hrow⟩ | ⟨row, -, hrow, -, hpool⟩⟩ := sellFill_ok hsell
    · simp [hrow, signedQuantity, haction, hall]
    · have hunits := congrArg CostPool.units hpool
      simpa [hrow, signedQuantity, haction, Position.pool, CostPool.remove, sub_eq_add_neg]
        using hunits

/-- A fill pays for what it adds and is paid for what it removes. -/
theorem fillOrder_balance
    (h : fillOrder action symbol quantity price balance position = .ok fill) :
    fill.balance = balance - price * signedQuantity action quantity := by
  rcases fillOrder_ok h with ⟨haction, hbuy⟩ | ⟨haction, hsell⟩
  · rw [(buyFill_ok hbuy).2.1, signedQuantity, if_pos haction]
  · obtain ⟨old, -, -, hbalance, -⟩ := sellFill_ok hsell
    rw [hbalance, signedQuantity, if_neg haction]
    ring

/-- Cash and book cost together move by the realized P&L of the fill. -/
theorem fillOrder_conserves
    (h : fillOrder action symbol quantity price balance position = .ok fill) :
    fill.balance + heldCost fill.position =
      balance + heldCost position + fill.realizedPnl.getD 0 := by
  rcases fillOrder_ok h with ⟨-, hbuy⟩ | ⟨-, hsell⟩
  · obtain ⟨-, hbalance, hpnl, ⟨rfl, hrow⟩ | ⟨old, row, rfl, hrow, -, hne, hpool⟩⟩ :=
      buyFill_ok hbuy
    · simp only [hbalance, hpnl, hrow, heldCost_some, Position.cost, heldCost_none,
        Option.getD_none]
      ring
    · -- re-averaging puts the price paid for the new units on top of the old cost
      have hcost := CostPool.cost_add old.pool price hne
      rw [← hpool, Position.pool_cost, Position.pool_cost] at hcost
      simp only [hbalance, hpnl, hrow, heldCost_some, hcost, Option.getD_none]
      ring
  · obtain ⟨old, rfl, -, hbalance, hpnl, ⟨hall, hrow⟩ | ⟨row, -, hrow, -, hpool⟩⟩ :=
      sellFill_ok hsell
    · simp only [hbalance, hpnl, hrow, heldCost_some, heldCost_none, Option.getD_some,
        CostPool.gain, Position.pool, Position.cost, hall]
      ring
    · -- the proceeds are the average cost of the units sold and the gain over it
      have hcost := CostPool.cost_remove old.pool quantity price
      rw [← hpool, Position.pool_cost, Position.pool_cost] at hcost
      simp only [hbalance, hpnl, hrow, heldCost_some, hcost, Option.getD_some]
      ring

/-- A buy adds what it pays to the book cost. -/
theorem buyFill_heldCost (h : buyFill symbol quantity price balance position = .ok fill) :
    heldCost fill.position = heldCost position + price * quantity := by
  have hfill : fillOrder "BUY" symbol quantity price balance position = .ok fill :=
    (if_pos rfl).trans h
  have hconserves := fillOrder_conserves hfill
  obtain ⟨-, hbalance, hpnl, -⟩ := buyFill_ok h
  rw [hbalance, hpnl, Option.getD_none] at hconserves
  linarith

/-- A sale takes the average cost of the units sold out of the book cost. -/
theorem sellFill_heldCost (h : sellFill quantity price balance position = .ok fill) :
    ∃ old, position = some old ∧
      heldCost fill.position = heldCost position - old.avgPrice * quantity := by
  -- a sale does not look at the symbol of the order
  have hfill : fillOrder "SELL" "" quantity price balance position = .ok fill :=
    (if_neg (by decide)).trans h
  have hconserves := fillOrder_conserves hfill
  obtain ⟨old, hold, -, hbalance, hpnl, -⟩ := sellFill_ok h
  rw [hbalance, hpnl, Option.getD_some, CostPool.gain, Position.pool] at hconserves
  exact ⟨old, hold, by linarith⟩

/-- Cash never goes below zero through a fill at a positive price. -/
theorem fillOrder_balance_nonneg
    (h : fillOrder action symbol quantity price balance position = .ok fill)
    (hbalance : 0 ≤ balance) (hprice : 0 < price) (hquantity : 0 < quantity) :
    0 ≤ fill.balance := by
  rcases fillOrder_ok h with ⟨-, hbuy⟩ | ⟨-, hsell⟩
  · obtain ⟨hcash, hnew, -⟩ := buyFill_ok hbuy
    linarith
  · obtain ⟨old, -, -, hnew, -⟩ := sellFill_ok hsell
    have hproceeds := mul_pos hprice hquantity
    linarith

/-- The row a fill writes carries the symbol of the order. -/
theorem fillOrder_symbol
    (h : fillOrder action symbol quantity price balance position = .ok fill)
    (hposition : ∀ old ∈ position, old.symbol = symbol) :
    ∀ row ∈ fill.position, row.symbol = symbol := by
  rintro row hrow
  rcases fillOrder_ok h with ⟨-, hbuy⟩ | ⟨-, hsell⟩
  · obtain ⟨-, -, -, ⟨-, hnew⟩ | ⟨old, new, rfl, hnew, hsymbol, -⟩⟩ := buyFill_ok hbuy
    · rw [hnew, Option.mem_some_iff] at hrow
      rw [← hrow]
    · rw [hnew, Option.mem_some_iff] at hrow
      rw [← hrow, hsymbol, hposition old rfl]
  · obtain ⟨old, rfl, -, -, -, ⟨-, hnew⟩ | ⟨new, -, hnew, hsymbol, -⟩⟩ := sellFill_ok hsell
    · simp [hnew] at hrow
    · rw [hnew, Option.mem_some_iff] at hrow
      rw [← hrow, hsymbol, hposition old rfl]

/-- The row a fill writes is valid if the row it read was. -/
theorem fillOrder_valid
    (h : fillOrder action symbol quantity price balance position = .ok fill)
    (hposition : ∀ old ∈ position, old.Valid) (hprice : 0 < price) (hquantity : 0 < quantity) :
    ∀ row ∈ fill.position, row.Valid := by
  rintro row hrow
  rcases fillOrder_ok h with ⟨-, hbuy⟩ | ⟨-, hsell⟩
  · obtain ⟨-, -, -, ⟨-, hnew⟩ | ⟨old, new, rfl, hnew, -, -, hpool⟩⟩ := buyFill_ok hbuy
    · rw [hnew, Option.mem_some_iff] at hrow
      exact hrow ▸ ⟨hquantity, hprice⟩
    · rw [hnew, Option.mem_some_iff] at hrow
      obtain ⟨hold, hcost⟩ := hposition old rfl
      have hpos : 0 < new.pool.units ∧ 0 < new.pool.unitCost := by
        rw [hpool]
        -- an average of positive prices is positive
        exact ⟨add_pos hold hquantity,
          CostPool.unitCost_add_pos old.pool hold hcost hquantity hprice⟩
      exact hrow ▸ hpos
  · obtain ⟨old, rfl, -, -, -, ⟨-, hnew⟩ | ⟨new, hless, hnew, -, hpool⟩⟩ := sellFill_ok hsell
    · simp [hnew] at hrow
    · rw [hnew, Option.mem_some_iff] at hrow
      obtain ⟨-, hcost⟩ := hposition old rfl
      have hpos : 0 < new.pool.units ∧ 0 < new.pool.unitCost := by
        rw [hpool]
        -- a row that would be emptied is deleted, so something is left
        exact ⟨sub_pos.mpr hless, hcost⟩
      exact hrow ▸ hpos

end Fill

end TradingSimulator
