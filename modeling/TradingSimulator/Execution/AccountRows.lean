import TradingSimulator.Execution.ExecutionEngine

/-!
# The rows of an account after a fill

The columns of an account over exact rationals (what is held of a symbol, the book cost of all
positions, the realized P&L of all trades) and how `Account.record` moves them. Every lemma here
instantiates a rule of `KeyedRows` at the position rows, keyed by their symbol.
-/

namespace TradingSimulator

/-! ### Writing one position row -/

section WritePosition

variable {α : Type} {symbol : String} {row : Option (Position α)} {positions : List (Position α)}

/-- At most one row per symbol stays so through a write. -/
theorem nodup_writePosition (h : (positions.map Position.symbol).Nodup) :
    ((writePosition symbol row positions).map Position.symbol).Nodup := by
  cases row with
  | none => exact KeyedRows.nodup_erase symbol h
  | some row => exact KeyedRows.nodup_put row h

/-- Every row after a write is the written one or was there before. -/
theorem mem_of_mem_writePosition {position : Position α}
    (h : position ∈ writePosition symbol row positions) :
    position ∈ row ∨ position ∈ positions := by
  cases row with
  | none => exact Or.inr (KeyedRows.mem_of_mem_erase h)
  | some row =>
    rcases KeyedRows.mem_of_mem_put h with rfl | h
    · exact Or.inl rfl
    · exact Or.inr h

/-- The symbol written to holds the written row. -/
theorem lookup_writePosition_self (hrow : ∀ new ∈ row, new.symbol = symbol)
    (h : (positions.map Position.symbol).Nodup) :
    KeyedRows.lookup Position.symbol symbol (writePosition symbol row positions) = row := by
  cases row with
  | none => exact KeyedRows.lookup_erase_self h
  | some row =>
    obtain rfl := hrow row rfl
    exact KeyedRows.lookup_put_self row positions

/-- Every other symbol holds what it held. -/
theorem lookup_writePosition_of_ne (hrow : ∀ new ∈ row, new.symbol = symbol) {other : String}
    (hne : symbol ≠ other) :
    KeyedRows.lookup Position.symbol other (writePosition symbol row positions) =
      KeyedRows.lookup Position.symbol other positions := by
  cases row with
  | none => exact KeyedRows.lookup_erase_of_ne hne positions
  | some row =>
    obtain rfl := hrow row rfl
    exact KeyedRows.lookup_put_of_ne hne positions

/-- A column sum changes by the entry of the symbol written to. -/
theorem sum_writePosition (f : Position α → ℚ) (hrow : ∀ new ∈ row, new.symbol = symbol) :
    ((writePosition symbol row positions).map f).sum =
      (positions.map f).sum -
        ((KeyedRows.lookup Position.symbol symbol positions).map f).getD 0 +
        (row.map f).getD 0 := by
  cases row with
  | none => simpa [writePosition] using KeyedRows.sum_erase f symbol positions
  | some row =>
    obtain rfl := hrow row rfl
    exact KeyedRows.sum_put f row positions

end WritePosition

/-! ### Columns of an account -/

namespace Account

variable (account : Account ℚ)

/-- The book cost of all positions, the sum of `quantity * avg_price`. -/
def cost : ℚ := (account.positions.map Position.cost).sum

/-- The realized P&L of all recorded trades, null counted as zero. -/
def realizedPnl : ℚ := (account.trades.map fun trade => trade.realizedPnl.getD 0).sum

/-- The quantity held of `symbol`, zero when there is no row. -/
def quantityOf (symbol : String) : ℚ := heldQuantity (account.position? symbol)

variable {account}

/-- A position row found for a symbol carries that symbol. -/
theorem position?_symbol {symbol : String} :
    ∀ position ∈ account.position? symbol, position.symbol = symbol :=
  fun _ h => (KeyedRows.mem_of_lookup h).2

/-- A position row found for a symbol is one of the rows. -/
theorem mem_of_position? {symbol : String} :
    ∀ position ∈ account.position? symbol, position ∈ account.positions :=
  fun _ h => (KeyedRows.mem_of_lookup h).1

@[simp]
theorem record_balance (trade : Trade ℚ) (fill : Fill ℚ) :
    (account.record trade fill).balance = fill.balance := rfl

@[simp]
theorem record_trades (trade : Trade ℚ) (fill : Fill ℚ) :
    (account.record trade fill).trades = account.trades ++ [trade] := rfl

/-- Recording a trade adds its realized P&L. -/
theorem realizedPnl_record (trade : Trade ℚ) (fill : Fill ℚ) :
    (account.record trade fill).realizedPnl =
      account.realizedPnl + trade.realizedPnl.getD 0 := by
  simp [realizedPnl]

variable {symbol action : String} {quantity price balance : ℚ} {fill : Fill ℚ} {trade : Trade ℚ}

/-- A fill replaces the book cost of its symbol. -/
theorem cost_record
    (h : fillOrder action symbol quantity price balance (account.position? symbol) =
      .ok fill) (htrade : trade.symbol = symbol) :
    (account.record trade fill).cost =
      account.cost - heldCost (account.position? symbol) + heldCost fill.position := by
  subst htrade
  exact sum_writePosition Position.cost (fillOrder_symbol h position?_symbol)

/-- After a fill its symbol has the row of the fill and every other symbol the row it had. -/
theorem position?_record
    (h : fillOrder action symbol quantity price balance (account.position? symbol) =
      .ok fill) (htrade : trade.symbol = symbol)
    (hnodup : (account.positions.map Position.symbol).Nodup) (other : String) :
    (account.record trade fill).position? other =
      if symbol = other then fill.position else account.position? other := by
  have hrow := fillOrder_symbol h position?_symbol
  subst htrade
  rw [position?, record]
  by_cases hsame : trade.symbol = other
  · subst hsame
    rw [if_pos rfl, lookup_writePosition_self hrow hnodup]
  · rw [if_neg hsame, lookup_writePosition_of_ne hrow hsame]
    rfl

/-- A fill moves the quantity of its symbol by the signed quantity and no other. -/
theorem quantityOf_record
    (h : fillOrder action symbol quantity price balance (account.position? symbol) =
      .ok fill) (htrade : trade.symbol = symbol)
    (hnodup : (account.positions.map Position.symbol).Nodup) (other : String) :
    (account.record trade fill).quantityOf other =
      account.quantityOf other + if symbol = other then signedQuantity action quantity else 0 := by
  rw [quantityOf, position?_record h htrade hnodup]
  by_cases hsame : symbol = other
  · subst hsame
    rw [if_pos rfl, if_pos rfl]
    exact fillOrder_heldQuantity h
  · rw [if_neg hsame, if_neg hsame, add_zero]
    rfl

/-- Every row is valid, and there is at most one per symbol. -/
structure RowsValid (account : Account ℚ) : Prop where
  valid : ∀ position ∈ account.positions, position.Valid
  unique : (account.positions.map Position.symbol).Nodup

/-- An account without positions has valid rows. -/
theorem RowsValid.of_nil (h : account.positions = []) : account.RowsValid where
  valid := by simp [h]
  unique := by simp [h]

/-- A fill at a positive price and quantity keeps the rows valid. -/
theorem RowsValid.record (hrows : account.RowsValid)
    (h : fillOrder action symbol quantity price balance (account.position? symbol) =
      .ok fill) (htrade : trade.symbol = symbol) (hprice : 0 < price) (hquantity : 0 < quantity) :
    (account.record trade fill).RowsValid where
  valid := by
    subst htrade
    intro position hposition
    rcases mem_of_mem_writePosition hposition with hnew | hold
    · exact fillOrder_valid h (fun old hold => hrows.valid old (mem_of_position? old hold)) hprice
        hquantity position hnew
    · exact hrows.valid position hold
  unique := nodup_writePosition hrows.unique

/-- A bound on every row is a bound on the quantity held of every symbol. -/
theorem RowsValid.forall_quantity_le_iff (hrows : account.RowsValid) {bound : ℚ}
    (hbound : 0 ≤ bound) :
    (∀ position ∈ account.positions, position.quantity ≤ bound) ↔
      ∀ symbol, account.quantityOf symbol ≤ bound := by
  constructor
  · intro h symbol
    rw [quantityOf]
    cases hposition : account.position? symbol with
    | none => exact hbound
    | some position => exact h position (mem_of_position? position hposition)
  · -- a row is what a lookup of its symbol finds, as no other row has this symbol
    intro h position hmem
    have hle := h position.symbol
    rwa [quantityOf, position?, KeyedRows.lookup_of_mem hrows.unique hmem] at hle

end Account

end TradingSimulator
