import TradingSimulator.Auth.AuthService
import TradingSimulator.Library.Tables
import TradingSimulator.Library.Transactions

/-!
# The demo account

`seed_demo_account` (`app/seed/demo.py`) on the four tables it works with. A module lock lets one
call run at a time, so a call is a program in a session of its own or in the session it is given.

Every step of the function may raise an exception (`SeedStep`, `Call.fault`). A row that is added
to the session is written at once here and by the flush of the commit in the source; no query stands
between the two.
-/

namespace TradingSimulator

namespace Demo

open Transactions

/-! ### Tables -/

/-- A `users` row with its address. -/
structure UserRow extends User where
  email : Option String
  deriving DecidableEq

/-- The unique columns of `users`: the id, the name and the address, which may be null. -/
def UserRow.Clash (row other : UserRow) : Prop :=
  row.id = other.id ∨ row.username = other.username ∨
    row.email.isSome = true ∧ row.email = other.email

instance : DecidableRel UserRow.Clash := fun row other =>
  inferInstanceAs (Decidable (row.id = other.id ∨ row.username = other.username ∨ _ ∧ _))

/-- The row with its password and balance changed, if it is the row of the user `id`. -/
def UserRow.updated (id : ℕ) (hashedPassword : String → String) (balance : ℚ → ℚ)
    (row : UserRow) : UserRow :=
  if row.id = id then
    { row with
      hashedPassword := hashedPassword row.hashedPassword
      balance := balance row.balance }
  else row

/-- The update of a row at its own id. -/
theorem UserRow.updated_id (row : UserRow) (hashedPassword : String → String) (balance : ℚ → ℚ) :
    row.updated row.id hashedPassword balance =
      { row with
        hashedPassword := hashedPassword row.hashedPassword
        balance := balance row.balance } :=
  if_pos rfl

/-- The unique columns are left alone. -/
theorem UserRow.clash_of_clash_updated {id : ℕ} {hashedPassword : String → String} {balance : ℚ → ℚ}
    {row other : UserRow}
    (h : Clash (row.updated id hashedPassword balance) (other.updated id hashedPassword balance)) :
    Clash row other := by
  unfold Clash UserRow.updated at *
  split at h <;> split at h <;> exact h

/-- The columns of a `trades` row. -/
structure TradeColumns where
  symbol : String
  action : String
  quantity : ℚ
  price : ℚ
  fees : ℚ
  realizedPnl : Option ℚ
  /-- Microseconds since the epoch. -/
  timestamp : ℤ
  orderId : Option ℕ := none
  deriving DecidableEq

/-- `uq_positions_user_symbol`: a user has one position in a symbol. -/
abbrev SameSymbol (position other : Position ℚ) : Prop := position.symbol = other.symbol

/-- A table without a unique column besides its key. -/
abbrev NeverSame {C : Type} (_ _ : C) : Prop := False

/-- The tables that seeding reads and writes. -/
structure Database where
  users : Table UserRow UserRow.Clash
  positions : OwnedTable (Position ℚ) SameSymbol
  trades : OwnedTable TradeColumns NeverSame
  equityHistory : OwnedTable (EquityHistory ℚ) NeverSame

/-- The models whose rows are wiped. -/
inductive WipedModel where
  | position
  | trade
  | equityHistory
  deriving DecidableEq

/-- An object that is added to the session. -/
inductive SeedRow where
  | position (columns : Position ℚ)
  | trade (columns : TradeColumns)
  | equityHistory (columns : EquityHistory ℚ)
  deriving DecidableEq

namespace Database

/-- `session.query(User).filter(User.username == username).first()`. -/
def userByName (username : String) (db : Database) : Option UserRow :=
  KeyedRows.lookup (fun row : UserRow => row.username) username db.users.rows

/-- The update of the columns without a constraint in the row of a user. -/
def updateUser (id : ℕ) (hashedPassword : String → String) (balance : ℚ → ℚ) (db : Database) :
    Database :=
  { db with
    users := db.users.update (UserRow.updated id hashedPassword balance)
      fun _ _ => UserRow.clash_of_clash_updated }

/-- `user.hashed_password = ...`. -/
def setPassword (id : ℕ) (hashedPassword : String) : Database → Database :=
  updateUser id (fun _ => hashedPassword) fun balance => balance

/-- `user.balance = ...`. -/
def setBalance (id : ℕ) (balance : ℚ) : Database → Database :=
  updateUser id (fun hashedPassword => hashedPassword) fun _ => balance

/-- A new `users` row with a generated id; the balance is the default of its column. -/
def newUser (keys : KeySource) (username : String) (email : Option String)
    (hashedPassword : String) (db : Database) : UserRow where
  id := keys.next (db.users.rows.map fun row => row.id)
  username := username
  hashedPassword := hashedPassword
  balance := 100000
  email := email

/-- The flush of a new user. The result is its id. -/
def insertUser? (keys : KeySource) (username : String) (email : Option String)
    (hashedPassword : String) (db : Database) : Option (ℕ × Database) :=
  let user := db.newUser keys username email hashedPassword
  (db.users.insert? user).map fun users => (user.id, { db with users })

/-- `session.query(model).filter(model.user_id == user.id).delete()`. -/
def wipe (userId : ℕ) : WipedModel → Database → Database
  | .position, db => { db with positions := db.positions.clear userId }
  | .trade, db => { db with trades := db.trades.clear userId }
  | .equityHistory, db => { db with equityHistory := db.equityHistory.clear userId }

/-- `session.add` of an object that belongs to a user. -/
def add? (keys : KeySource) (userId : ℕ) : SeedRow → Database → Option Database
  | .position columns, db =>
    (db.positions.insertFor? keys userId columns).map fun positions => { db with positions }
  | .trade columns, db =>
    (db.trades.insertFor? keys userId columns).map fun trades => { db with trades }
  | .equityHistory columns, db =>
    (db.equityHistory.insertFor? keys userId columns).map fun equityHistory =>
      { db with equityHistory }

end Database

/-! ### The curated account -/

/-- `DEMO_USERNAME`. -/
def demoUsername : String := "demo"

/-- `DEMO_PASSWORD`. -/
def demoPassword : String := "demo-explorer-2025"

/-- `DEMO_EMAIL`. -/
def demoEmail : String := "demo@algo-trading-simulator.app"

/-- `_START_CAPITAL`. -/
def startCapital : ℚ := 100000

/-- `_FEE`. -/
def fee : ℚ := 1

/-- An entry of `_OPEN`. -/
structure OpenPosition where
  symbol : String
  quantity : ℚ
  avgBuyPrice : ℚ

/-- An entry of `_CLOSED`. -/
structure ClosedRoundTrip where
  symbol : String
  quantity : ℚ
  buyPrice : ℚ
  sellPrice : ℚ

/-- `_OPEN`. -/
def openPositions : List OpenPosition :=
  [⟨"AAPL", 40, 205⟩, ⟨"NVDA", 120, 118⟩, ⟨"MSFT", 15, 410⟩, ⟨"AMZN", 30, 200⟩, ⟨"TSLA", 25, 360⟩]

/-- `_CLOSED`. -/
def closedRoundTrips : List ClosedRoundTrip :=
  [⟨"GOOGL", 50, 180, 195⟩, ⟨"AMD", 80, 150, 165⟩]

/-- The clock, the prices and the functions of the standard library. -/
structure World where
  /-- `datetime.utcnow()` in microseconds since the epoch. -/
  now : ℤ
  priceAt : String → ℚ
  /-- `round(x, 2)`. -/
  round2 : ℚ → ℚ
  sin : ℚ → ℚ
  pi : ℚ
  /-- The draws of `random.Random(42)`. -/
  random : ℕ → ℚ
  /-- `timedelta(days=x)` in microseconds. -/
  days : ℚ → ℤ

/-- `timedelta(days=d, hours=h)` in microseconds. -/
def timedelta (days hours : ℤ) : ℤ := (days * 24 + hours) * 3600000000

/-- The result of `_build_trades`. -/
structure TradeHistory where
  trades : List TradeColumns
  realized : ℚ
  openCost : ℚ

/-- A pass of the loop over `_CLOSED`, with its `day`. -/
def addRoundTrip (world : World) (state : TradeHistory × ℤ) (trip : ClosedRoundTrip) :
    TradeHistory × ℤ :=
  let pnl := (trip.sellPrice - trip.buyPrice) * trip.quantity - 2 * fee
  ({ state.1 with
      realized := state.1.realized + pnl
      trades := state.1.trades ++
        [{ symbol := trip.symbol, action := "BUY", quantity := trip.quantity,
           price := trip.buyPrice, fees := fee, realizedPnl := none,
           timestamp := world.now - timedelta state.2 2 },
         { symbol := trip.symbol, action := "SELL", quantity := trip.quantity,
           price := trip.sellPrice, fees := fee, realizedPnl := some (world.round2 pnl),
           timestamp := world.now - timedelta (state.2 - 6) 0 }] },
    state.2 - 6)

/-- A pass of the loop over `_OPEN`, with its `day`. -/
def addOpenTrade (world : World) (state : TradeHistory × ℤ) (entry : OpenPosition) :
    TradeHistory × ℤ :=
  ({ state.1 with
      openCost := state.1.openCost + (entry.quantity * entry.avgBuyPrice + fee)
      trades := state.1.trades ++
        [{ symbol := entry.symbol, action := "BUY", quantity := entry.quantity,
           price := entry.avgBuyPrice, fees := fee, realizedPnl := none,
           timestamp := world.now - timedelta state.2 1 }] },
    state.2 - 4)

/-- `_build_trades`. -/
def buildTrades (world : World) : TradeHistory :=
  -- `day` starts at 45 for the closed trades and at 30 for the open ones
  let closed := closedRoundTrips.foldl (addRoundTrip world)
    ({ trades := [], realized := 0, openCost := 0 }, 45)
  (openPositions.foldl (addOpenTrade world) (closed.1, 30)).1

/-- `_build_equity_curve`. -/
def buildEquityCurve (world : World) (start last : ℚ) (points days : ℕ) :
    List (EquityHistory ℚ) :=
  let out := (List.range points).map fun (i : ℕ) =>
    let frac : ℚ := i / (points - 1)
    let base := start + (last - start) * frac
    let envelope := world.sin (world.pi * frac)
    -- the noise vanishes with the envelope at both ends
    let noise := (world.random i - 1 / 2) * start * (2 / 100) * envelope
    { totalEquity := world.round2 (base + noise)
      timestamp := world.now - world.days days + world.days (days * frac) }
  -- the last point is pinned to the live equity
  out.set (points - 1) { totalEquity := world.round2 last, timestamp := world.now }

/-! ### Seeding -/

/-- The steps of `seed_demo_account`. -/
inductive SeedStep where
  | findUser
  | hashPassword
  | insertUser
  | wipe (model : WipedModel)
  | utcnow
  | addTrade (i : ℕ)
  | addPosition (symbol : String)
  | priceAt (symbol : String)
  | addEquity (i : ℕ)
  | flush
  /-- `user.id` after the commit: the row has expired and is loaded again. -/
  | reload
  deriving DecidableEq

/-- The exceptions of a call. -/
inductive SeedError where
  | raised (step : SeedStep)
  | integrityError
  | service (error : ServiceError)
  deriving DecidableEq

/-- What differs from call to call: the salt, the generated keys and the exceptions. -/
structure Call where
  salt : String
  keys : KeySource
  fault : SeedStep → Option SeedError

section Seeding

variable {Token : Type} (libs : AuthLibs Token) (world : World) (call : Call)

/-- The programs of this module. -/
abbrev Seeding (R : Type) : Type := Transaction Database SeedError R

/-- A step that may raise an exception before it has an effect. -/
def perform {R : Type} (step : SeedStep) (t : Seeding R) : Seeding R :=
  Transaction.failing (call.fault step) t

/-- A write that a constraint may refuse. -/
def constrained {R : Type} (f : Database → Option (R × Database)) : Seeding R :=
  Transaction.attempt fun db =>
    match f db with
    | some result => .ok result
    | none => .error .integrityError

/-- `hash_password(DEMO_PASSWORD)`. -/
def hashDemoPassword : Seeding String :=
  match hashPassword libs demoPassword call.salt with
  | .ok hashed => pure hashed
  | .error error => Transaction.raise (.service error)

/-- The demo user with its password, created when there is none. -/
def ensureUser : Seeding ℕ := do
  let user ← perform call .findUser (Transaction.read (Database.userByName demoUsername))
  match user with
  | none =>
    -- the id is generated by the flush, before anything is added for it
    let hashed ← perform call .hashPassword (hashDemoPassword libs call)
    perform call .insertUser
      (constrained (Database.insertUser? call.keys demoUsername (some demoEmail) hashed))
  | some user =>
    -- an earlier visitor may have changed the password
    let hashed ← perform call .hashPassword (hashDemoPassword libs call)
    Transaction.write (Database.setPassword user.id hashed)
    pure user.id

/-- The loop that wipes the prior state. -/
def wipeAll (userId : ℕ) : Seeding Unit :=
  [WipedModel.position, .trade, .equityHistory].foldlM (fun _ model =>
    perform call (.wipe model) (Transaction.write (Database.wipe userId model))) ()

/-- `session.add`. -/
def addRow (step : SeedStep) (userId : ℕ) (row : SeedRow) : Seeding Unit :=
  perform call step
    (constrained fun db => (db.add? call.keys userId row).map fun db' => ((), db'))

/-- A loop that adds one row after another; its accumulator counts the passes. -/
def addRows (step : ℕ → SeedStep) (userId : ℕ) (rows : List SeedRow) (i : ℕ) : Seeding ℕ :=
  rows.foldlM (fun i row => do
    addRow call (step i) userId row
    pure (i + 1)) i

/-- The position row of an entry of `_OPEN`. -/
def OpenPosition.row (entry : OpenPosition) : Position ℚ where
  symbol := entry.symbol
  quantity := entry.quantity
  avgPrice := entry.avgBuyPrice

/-- The loop over `_OPEN` that adds the positions and sums up their market value. -/
def addPositions (userId : ℕ) (entries : List OpenPosition) (marketValue : ℚ) : Seeding ℚ :=
  entries.foldlM (fun marketValue entry => do
    addRow call (.addPosition entry.symbol) userId (.position entry.row)
    let price ← perform call (.priceAt entry.symbol) (pure (world.priceAt entry.symbol))
    pure (marketValue + entry.quantity * price)) marketValue

/-- `seed_demo_account` up to its commit. -/
def seedBody : Seeding ℕ := do
  let userId ← ensureUser libs call
  -- the deletions come first, so that no new position meets an old one of its symbol
  wipeAll call userId
  perform call .utcnow (pure ())
  let history := buildTrades world
  let _ ← addRows call .addTrade userId (history.trades.map .trade) 0
  let marketValue ← addPositions world call userId openPositions 0
  -- the balance is what the curated trades leave, whatever it was
  let cash := startCapital - history.openCost + history.realized
  Transaction.write (Database.setBalance userId (world.round2 cash))
  let curve := buildEquityCurve world startCapital (cash + marketValue) 60 30
  let _ ← addRows call .addEquity userId (curve.map .equityHistory) 0
  -- the commit flushes before it commits
  perform call .flush (pure ())
  pure userId

/-- `seed_demo_account`. -/
def seedDemoAccount : Seeding ℕ :=
  Transaction.orRollback do
    let userId ← seedBody libs world call
    Transaction.commit
    perform call .reload (pure userId)

end Seeding

end Demo

end TradingSimulator
