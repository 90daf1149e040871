import TradingSimulator.Api.Routes
import TradingSimulator.Config
import TradingSimulator.Execution.AccountRows
import TradingSimulator.Library.Runs

/-!
# The ledger of an account

Whole runs of `execute_trade` and `reset_account` on one user. `LedgerInv` is the invariant:
cash and book cost together differ from the opening balance by the realized P&L alone, the cash is
not negative, and the position rows are valid and unique per symbol. Each call keeps it
(`AccountCall.apply_inv`), so it holds after every run; `executeTrade_ledger` states what follows
for a reachable account.
-/

namespace TradingSimulator

/-- One call on the account of a user. -/
inductive AccountCall where
  | executeTrade (market : MarketState ℚ) (request : ExecuteTradeRequest ℚ) (stamp : RowStamp)
  | resetAccount

namespace AccountCall

/-- Orders have a positive quantity. Nothing is asked of the quotes: the engine refuses an order
whose quote is not positive. -/
def Admissible : AccountCall → Prop
  | .executeTrade _ request _ => 0 < request.quantity
  | .resetAccount => True

/-- The account after a call. -/
def apply (upper : String → String) (settings : Settings) (account : Account ℚ) :
    AccountCall → Account ℚ
  | .executeTrade market request stamp =>
      (TradingSimulator.executeTrade upper market (some account) request stamp).2.getD account
  | .resetAccount => TradingSimulator.resetAccount settings.defaultUserBalance account

end AccountCall

/-- The invariant of an account opened with the balance `opening`. -/
structure LedgerInv (opening : ℚ) (account : Account ℚ) : Prop extends account.RowsValid where
  /-- Only realized P&L moves cash and book cost together. -/
  conserved : account.balance + account.cost = opening + account.realizedPnl
  /-- An account opened solvent stays solvent. -/
  solvent : 0 ≤ opening → 0 ≤ account.balance

namespace LedgerInv

variable {opening : ℚ} {account : Account ℚ}

/-- A freshly opened account meets the invariant. -/
theorem opened (opening : ℚ) : LedgerInv opening (Account.opened opening) where
  toRowsValid := Account.RowsValid.of_nil rfl
  conserved := by simp [Account.opened, Account.cost, Account.realizedPnl]
  solvent hopening := hopening

/-- Recording a fill keeps the invariant. -/
theorem record (hinv : LedgerInv opening account) {symbol action : String} {quantity price : ℚ}
    {fill : Fill ℚ}
    (h : fillOrder action symbol quantity price account.balance (account.position? symbol) =
      .ok fill) (stamp : RowStamp) (hprice : 0 < price) (hquantity : 0 < quantity) :
    LedgerInv opening
      (account.record (fill.toTrade symbol action quantity price stamp) fill) where
  toRowsValid := hinv.toRowsValid.record h rfl hprice hquantity
  conserved := by
    -- the book cost of the symbol is replaced, all other rows keep theirs
    have hcash := fillOrder_conserves h
    have hbook := hinv.conserved
    rw [Account.record_balance, Account.cost_record h rfl, Account.realizedPnl_record,
      Fill.toTrade]
    linarith
  solvent hopening :=
    fillOrder_balance_nonneg h (hinv.solvent hopening) hprice hquantity

end LedgerInv

/-- Every admissible call keeps the invariant. -/
theorem AccountCall.apply_inv (upper : String → String) (settings : Settings)
    (account : Account ℚ) (call : AccountCall) (hcall : call.Admissible)
    (hinv : LedgerInv settings.defaultUserBalance account) :
    LedgerInv settings.defaultUserBalance (call.apply upper settings account) := by
  cases call with
  | resetAccount =>
    -- the rows of a reset account are those of a new one
    have hopened := LedgerInv.opened settings.defaultUserBalance
    exact ⟨Account.RowsValid.of_nil rfl, hopened.conserved, hopened.solvent⟩
  | executeTrade market request stamp =>
    obtain ⟨response, h, -⟩ | ⟨price, fill, trade, hprice, hfill, rfl, h⟩ :=
      executeTrade_cases upper market account request stamp
    · simpa only [AccountCall.apply, h, Option.getD_some] using hinv
    · simp only [AccountCall.apply, h, Option.getD_some]
      exact hinv.record hfill stamp (validPrice?_eq_some_iff.mp hprice).2 hcall

/-- The invariant holds after every run of admissible calls. -/
theorem LedgerInv.of_run (upper : String → String) (settings : Settings)
    (calls : List AccountCall) (hcalls : ∀ call ∈ calls, call.Admissible) :
    LedgerInv settings.defaultUserBalance
      (calls.foldl (AccountCall.apply upper settings)
        (Account.opened settings.defaultUserBalance)) :=
  Runs.foldl_invariant (AccountCall.apply_inv upper settings) (LedgerInv.opened _) hcalls

/-- A call that does not succeed leaves the rows of the user as they were. -/
theorem executeTrade_failure {upper : String → String} {market : MarketState ℚ}
    {account : Account ℚ} {request : ExecuteTradeRequest ℚ} {stamp : RowStamp} {error : String}
    (h : (executeTrade upper market (some account) request stamp).1 = .ok (.failure error)) :
    (executeTrade upper market (some account) request stamp).2 = some account := by
  obtain ⟨response, hresult, -⟩ | ⟨price, fill, trade, -, -, -, hresult⟩ :=
    executeTrade_cases upper market account request stamp
  · rw [hresult]
  · -- a filled order answers with a success
    rw [hresult] at h
    simp at h

/-- A filled order swaps cash and shares at the quoted price, so it leaves the equity alone. A row
without a positive quote is marked at its average price before and after, so nothing is asked of
the other quotes. -/
theorem executeTrade_totalEquity {upper : String → String} {market : MarketState ℚ}
    {account account' : Account ℚ} {request : ExecuteTradeRequest ℚ} {stamp : RowStamp}
    {trade : Trade ℚ} {status : String} {balance : ℚ}
    (h : executeTrade upper market (some account) request stamp =
      (.ok (.success trade status balance), some account')) :
    account'.totalEquity market = account.totalEquity market := by
  obtain ⟨response, hresult, hresponse⟩ | ⟨price, fill, trade, hprice, hfill, rfl, hresult⟩ :=
    executeTrade_cases upper market account request stamp
  · rw [hresult, Prod.mk.injEq] at h
    exact absurd h.1 (hresponse trade status balance)
  · rw [hresult, Prod.mk.injEq] at h
    obtain rfl := Option.some.inj h.2
    -- every row that counts is marked at its quote, the row of the order at `price`
    have hmark : ∀ row : Position ℚ, row.symbol = upper request.symbol →
        markPrice market.prices row = price := by
      intro row hrow
      have hquote : validPrice? (market.prices row.symbol) = some price := by
        rw [hrow]
        exact hprice
      simp [markPrice, hquote]
    have hmarked : ∀ row : Option (Position ℚ), (∀ new ∈ row, new.symbol = upper request.symbol) →
        (row.map fun position => markPrice market.prices position * position.quantity).getD 0 =
          price * heldQuantity row := by
      rintro (_ | row) hrow
      · simp
      · simp [hmark row (hrow row rfl)]
    have hrow := fillOrder_symbol hfill Account.position?_symbol
    have hquantity := fillOrder_heldQuantity hfill
    have hbalance := fillOrder_balance hfill
    -- the cash paid is the market value of the shares that are added
    rw [totalEquity_eq, totalEquity_eq, Account.record_balance, Account.record, Fill.toTrade]
    simp only
    rw [sum_writePosition _ hrow, hmarked _ hrow,
      hmarked (KeyedRows.lookup Position.symbol (upper request.symbol) account.positions)
        Account.position?_symbol, hquantity, hbalance, Account.position?]
    ring

/-- After every run of orders and resets from the opening balance, cash and book cost differ from
it by the realized P&L, the account is solvent and its rows are valid. In the state reached a
failing order changes nothing and a filled one leaves the equity alone. -/
theorem executeTrade_ledger (upper : String → String) (settings : Settings)
    (calls : List AccountCall) (hcalls : ∀ call ∈ calls, call.Admissible) (account : Account ℚ)
    (hrun : account = calls.foldl (AccountCall.apply upper settings)
      (Account.opened settings.defaultUserBalance)) :
    account.balance + account.cost = settings.defaultUserBalance + account.realizedPnl ∧
      (0 ≤ settings.defaultUserBalance → 0 ≤ account.balance) ∧
      (∀ position ∈ account.positions, 0 < position.quantity ∧ 0 < position.avgPrice) ∧
      (account.positions.map Position.symbol).Nodup ∧
      (∀ market request stamp error,
        (executeTrade upper market (some account) request stamp).1 = .ok (.failure error) →
        (executeTrade upper market (some account) request stamp).2 = some account) ∧
      ∀ market request stamp trade status balance account',
        executeTrade upper market (some account) request stamp =
          (.ok (.success trade status balance), some account') →
        account'.totalEquity market = account.totalEquity market := by
  have hinv : LedgerInv settings.defaultUserBalance account :=
    hrun ▸ LedgerInv.of_run upper settings calls hcalls
  -- the last two parts are about one call, from any account
  refine ⟨hinv.conserved, hinv.solvent, hinv.valid, hinv.unique, ?_, ?_⟩
  · intro market request stamp error h
    exact executeTrade_failure h
  · intro market request stamp trade status balance account' h
    exact executeTrade_totalEquity h

/-- Reset the account, buy two shares and sell one of them at a gain. -/
def partialCloseCalls : List AccountCall :=
  [.resetAccount,
   .executeTrade (.ofQuotes [("AAPL", 100)])
    { symbol := "aapl", action := "buy", quantity := 2 } ⟨1, 0⟩,
   .executeTrade (.ofQuotes [("AAPL", 150)])
    { symbol := "AAPL", action := "sell", quantity := 1 } ⟨2, 1⟩]

/-- The account that `partialCloseCalls` leaves. -/
def partialCloseAccount : Account ℚ where
  balance := 99950
  positions := [⟨"AAPL", 1, 100⟩]
  trades := [⟨1, "AAPL", "BUY", 2, 100, none, 0⟩, ⟨2, "AAPL", "SELL", 1, 150, some 50, 1⟩]
  equityHistory := []

/-- The literal account is what the calls leave. -/
theorem partialCloseAccount_eq : partialCloseAccount =
    partialCloseCalls.foldl (AccountCall.apply String.toUpper {})
      (Account.opened ({} : Settings).defaultUserBalance) := by
  let bought : Account ℚ := ⟨99800, [⟨"AAPL", 2, 100⟩], [⟨1, "AAPL", "BUY", 2, 100, none, 0⟩], []⟩
  -- each order is evaluated on its own: the kernel does not share the state between them
  have hbuy : (partialCloseCalls.take 2).foldl (AccountCall.apply String.toUpper {})
      (Account.opened ({} : Settings).defaultUserBalance) = bought := by decide +kernel
  have hsell : (partialCloseCalls.drop 2).foldl (AccountCall.apply String.toUpper {}) bought =
      partialCloseAccount := by decide +kernel
  rw [← List.take_append_drop 2 partialCloseCalls, List.foldl_append, hbuy, hsell]

theorem partialCloseCalls_admissible : ∀ call ∈ partialCloseCalls, call.Admissible := by
  simp [partialCloseCalls, AccountCall.Admissible]

/-- An account with a position that was sold in part. -/
theorem executeTrade_ledger_partialClose :
    partialCloseAccount.balance + partialCloseAccount.cost =
      ({} : Settings).defaultUserBalance + partialCloseAccount.realizedPnl :=
  (executeTrade_ledger String.toUpper {} partialCloseCalls partialCloseCalls_admissible _
    partialCloseAccount_eq).1

end TradingSimulator
