import TradingSimulator.Library.KeyedRows

/-!
# Database rows

The ORM models the trading engine reads and writes (`app/models`) and the request body of
`POST /trades` (`app/schemas/trade.py`). Every query of the engine filters by `user_id`, so an
`Account` gathers the `users` row of one user with the rows that belong to it.

The number type `α` is a parameter: the same code is read over exact rationals and over
rationals with the IEEE special values.
-/

namespace TradingSimulator

variable {α : Type}

/-- A `positions` row: what is held of one symbol and the average price paid. -/
structure Position (α : Type) where
  symbol : String
  quantity : α
  avgPrice : α
  deriving DecidableEq

/-- A `trades` row. `realizedPnl` is null for a buy. -/
structure Trade (α : Type) where
  id : ℕ
  symbol : String
  action : String
  quantity : α
  price : α
  realizedPnl : Option α
  /-- Microseconds since the epoch. -/
  timestamp : ℤ
  deriving DecidableEq

/-- An `equity_history` row. -/
structure EquityHistory (α : Type) where
  totalEquity : α
  /-- Microseconds since the epoch. -/
  timestamp : ℤ
  deriving DecidableEq

/-- The `users` row of one user with the rows of the other tables that belong to it, trades in
the order of their ids. -/
structure Account (α : Type) where
  balance : α
  positions : List (Position α)
  trades : List (Trade α)
  equityHistory : List (EquityHistory α)
  deriving DecidableEq

/-- The body of `POST /trades`. -/
structure ExecuteTradeRequest (α : Type) where
  symbol : String
  action : String
  quantity : α
  orderType : String := "MARKET"
  limitPrice : Option α := none
  deriving DecidableEq

/-- An `HTTPException`. -/
structure HttpError where
  statusCode : ℕ
  detail : String
  deriving DecidableEq

/-- The exception a failing database query raises. -/
inductive DbError where
  | queryFailed
  deriving DecidableEq

/-- SQL `SUM`: null entries are skipped, and the sum of no entry is null. -/
def sqlSum [Add α] [Zero α] (column : List (Option α)) : Option α :=
  match column.filterMap id with
  | [] => none
  | entries => some entries.sum

namespace Account

/-- A user that holds nothing and has never traded. -/
def opened (balance : α) : Account α :=
  { balance, positions := [], trades := [], equityHistory := [] }

/-- The position row for `symbol`. -/
def position? (account : Account α) (symbol : String) : Option (Position α) :=
  KeyedRows.lookup Position.symbol symbol account.positions

end Account

end TradingSimulator
