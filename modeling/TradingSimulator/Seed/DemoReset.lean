import Mathlib.Data.Multiset.Defs
import TradingSimulator.Auth.Revocation
import TradingSimulator.Seed.Demo

/-!
# Seeding resets the demo account

What a call of `seed_demo_account` leaves in the database, from every state of the tables. The rows
of a user are followed as its `Belongings` and all other rows as `Others`; `Progress` says how far
a call has come, and one lemma for each kind of step carries it on. The steps before the commit are
`Tentative`, so that an exception of any of them is rolled back.
-/

namespace TradingSimulator

namespace Demo

open Transactions Transaction

/-! ### The rows of a user and the other rows -/

/-- The rows that belong to a user, table by table. -/
structure Belongings where
  positions : List (Position ℚ)
  trades : List TradeColumns
  equityHistory : List (EquityHistory ℚ)

namespace Belongings

/-- A user without rows. -/
def none : Belongings where
  positions := []
  trades := []
  equityHistory := []

/-- A further row. -/
def add (b : Belongings) : SeedRow → Belongings
  | .position columns => { b with positions := b.positions ++ [columns] }
  | .trade columns => { b with trades := b.trades ++ [columns] }
  | .equityHistory columns => { b with equityHistory := b.equityHistory ++ [columns] }

/-- The constraints of the tables let the row in. -/
def Accepts (b : Belongings) : SeedRow → Prop
  | .position columns => ∀ old ∈ b.positions, old.symbol ≠ columns.symbol
  | .trade _ => True
  | .equityHistory _ => True

/-- Trades one after the other. -/
theorem foldl_add_trades (columns : List TradeColumns) (b : Belongings) :
    (columns.map SeedRow.trade).foldl add b = { b with trades := b.trades ++ columns } := by
  induction columns generalizing b with
  | nil => simp
  | cons trade columns ih =>
    -- the rows in front are free in the induction
    rw [List.map_cons, List.foldl_cons, ih]
    simp [add]

/-- Points of the equity curve one after the other. -/
theorem foldl_add_equity (columns : List (EquityHistory ℚ)) (b : Belongings) :
    (columns.map SeedRow.equityHistory).foldl add b =
      { b with equityHistory := b.equityHistory ++ columns } := by
  induction columns generalizing b with
  | nil => simp
  | cons point columns ih =>
    rw [List.map_cons, List.foldl_cons, ih]
    simp [add]

end Belongings

/-- The rows that do not belong to a user. -/
@[ext]
structure Others where
  users : List UserRow
  positions : List (OwnedRow (Position ℚ))
  trades : List (OwnedRow TradeColumns)
  equityHistory : List (OwnedRow (EquityHistory ℚ))

namespace Database

/-- The rows of a user. -/
def belongings (userId : ℕ) (db : Database) : Belongings where
  positions := db.positions.owned userId
  trades := db.trades.owned userId
  equityHistory := db.equityHistory.owned userId

/-- The rows of all other users. -/
def others (userId : ℕ) (db : Database) : Others where
  users := db.users.rows.filter fun row => row.id ≠ userId
  positions := db.positions.others userId
  trades := db.trades.others userId
  equityHistory := db.equityHistory.others userId

variable {db db' : Database} {userId : ℕ}

/-! #### Users -/

/-- An update is seen by the lookups by name. -/
theorem userByName_updateUser (username : String) (hashedPassword : String → String)
    (balance : ℚ → ℚ) :
    (db.updateUser userId hashedPassword balance).userByName username =
      (db.userByName username).map (UserRow.updated userId hashedPassword balance) := by
  unfold userByName updateUser KeyedRows.lookup
  rw [Table.rows_update, List.find?_map]
  -- an update keeps the name of a row
  congr 2
  funext row
  simp only [Function.comp_apply, UserRow.updated]
  split
  · rfl
  · rfl

/-- An update of one user leaves all rows of the others alone. -/
@[simp]
theorem others_updateUser (hashedPassword : String → String) (balance : ℚ → ℚ) :
    (db.updateUser userId hashedPassword balance).others userId = db.others userId := by
  have hrows : ∀ rows : List UserRow,
      ((rows.map (UserRow.updated userId hashedPassword balance)).filter
        fun row => row.id ≠ userId) = rows.filter fun row => row.id ≠ userId := by
    intro rows
    induction rows with
    | nil => rfl
    | cons row rows ih =>
      -- an updated row keeps its id, and is filtered out before and after
      by_cases hid : row.id = userId
      · simpa [UserRow.updated, hid] using ih
      · simpa [UserRow.updated, hid] using ih
  ext : 1
  · exact hrows db.users.rows
  · rfl
  · rfl
  · rfl

section InsertUser

variable {keys : KeySource} {username hashedPassword : String} {email : Option String} {id : ℕ}

/-- A new user is found under its name, and no row of another user changes. -/
theorem insertUser?_spec (hnone : db.userByName username = none)
    (h : db.insertUser? keys username email hashedPassword = some (id, db')) :
    (∃ user, db'.userByName username = some user ∧ user.id = id ∧
        user.hashedPassword = hashedPassword) ∧
      db'.others id = db.others id := by
  unfold insertUser? at h
  obtain ⟨users, husers, heq⟩ := Option.map_eq_some_iff.mp h
  cases heq
  have hrows := Table.rows_of_insert? husers
  have hnames : ∀ row ∈ db.users.rows, row.username ≠ username :=
    KeyedRows.lookup_eq_none_iff.mp hnone
  constructor
  -- no row in front of the new one has its name
  · refine ⟨db.newUser keys username email hashedPassword, ?_, rfl, rfl⟩
    unfold userByName
    rw [hrows, KeyedRows.lookup_append hnames, KeyedRows.lookup_cons]
    exact if_pos rfl
  -- the new row is not one of the others
  · ext : 1
    · simp [others, hrows]
    · rfl
    · rfl
    · rfl

/-- A new user is refused only when its address is taken: the id is fresh. -/
theorem exists_insertUser? (keys : KeySource) (hashedPassword : String)
    (hnone : db.userByName username = none)
    (hemail : ∀ row ∈ db.users.rows, row.email.isSome → row.email ≠ email) :
    ∃ id db', db.insertUser? keys username email hashedPassword = some (id, db') := by
  have hnames : ∀ row ∈ db.users.rows, row.username ≠ username :=
    KeyedRows.lookup_eq_none_iff.mp hnone
  cases hinsert : db.users.insert? (db.newUser keys username email hashedPassword) with
  | some users => exact ⟨_, _, Option.map_eq_some_iff.mpr ⟨users, hinsert, rfl⟩⟩
  | none =>
    -- what it clashes with: an id, a name or an address
    obtain ⟨old, hold, hid | hname | ⟨hsome, heq⟩⟩ := Table.insert?_eq_none_iff.mp hinsert
    · have hused : old.id ∈ db.users.rows.map fun row => row.id :=
        List.mem_map_of_mem (f := fun row : UserRow => row.id) hold
      rw [hid] at hused
      exact absurd hused (keys.fresh _)
    · exact absurd hname (hnames old hold)
    · exact absurd heq (hemail old hold hsome)

/-- An address that another user has is refused. -/
theorem insertUser?_of_taken {row : UserRow} (hrow : row ∈ db.users.rows)
    {address : String} (hemail : row.email = some address) :
    db.insertUser? keys username (some address) hashedPassword = none := by
  unfold insertUser?
  rw [Option.map_eq_none_iff, Table.insert?_eq_none_iff]
  refine ⟨row, hrow, Or.inr (Or.inr ⟨?_, hemail⟩)⟩
  rw [hemail]
  rfl

end InsertUser

/-! #### Rows of a user -/

/-- A wipe leaves users and the rows of others alone. -/
theorem wipe_spec (model : WipedModel) :
    (db.wipe userId model).users = db.users ∧
      (db.wipe userId model).others userId = db.others userId := by
  cases model with
  | position => simp [wipe, others]
  | trade => simp [wipe, others]
  | equityHistory => simp [wipe, others]

/-- Nothing is left of a user after the three wipes. -/
theorem belongings_wipe :
    (((db.wipe userId .position).wipe userId .trade).wipe userId .equityHistory).belongings userId =
      Belongings.none := by
  simp [wipe, belongings, Belongings.none]

section Add

variable {keys : KeySource} {row : SeedRow}

/-- An added row comes behind the rows of its user, and nothing else changes. -/
theorem add?_spec (h : db.add? keys userId row = some db') :
    db'.belongings userId = (db.belongings userId).add row ∧ db'.users = db.users ∧
      db'.others userId = db.others userId := by
  cases row with
  | position columns =>
    obtain ⟨positions, hinsert, rfl⟩ := Option.map_eq_some_iff.mp h
    simp [belongings, others, Belongings.add, OwnedTable.owned_of_insertFor? hinsert,
      OwnedTable.others_of_insertFor? hinsert]
  | trade columns =>
    obtain ⟨trades, hinsert, rfl⟩ := Option.map_eq_some_iff.mp h
    simp [belongings, others, Belongings.add, OwnedTable.owned_of_insertFor? hinsert,
      OwnedTable.others_of_insertFor? hinsert]
  | equityHistory columns =>
    obtain ⟨equityHistory, hinsert, rfl⟩ := Option.map_eq_some_iff.mp h
    simp [belongings, others, Belongings.add, OwnedTable.owned_of_insertFor? hinsert,
      OwnedTable.others_of_insertFor? hinsert]

/-- A row is refused only by a position of the same user in the same symbol. -/
theorem exists_add? (keys : KeySource) (h : (db.belongings userId).Accepts row) :
    ∃ db', db.add? keys userId row = some db' := by
  cases row with
  | position columns =>
    obtain ⟨positions, hinsert⟩ := OwnedTable.exists_insertFor? keys h
    exact ⟨_, Option.map_eq_some_iff.mpr ⟨positions, hinsert, rfl⟩⟩
  | trade columns =>
    have hnever : ∀ old ∈ db.trades.owned userId, ¬ NeverSame old columns := fun _ _ => id
    obtain ⟨trades, hinsert⟩ := OwnedTable.exists_insertFor? keys hnever
    exact ⟨_, Option.map_eq_some_iff.mpr ⟨trades, hinsert, rfl⟩⟩
  | equityHistory columns =>
    have hnever : ∀ old ∈ db.equityHistory.owned userId, ¬ NeverSame old columns := fun _ _ => id
    obtain ⟨equityHistory, hinsert⟩ := OwnedTable.exists_insertFor? keys hnever
    exact ⟨_, Option.map_eq_some_iff.mpr ⟨equityHistory, hinsert, rfl⟩⟩

end Add

end Database

/-! ### What a call does step by step -/

section Steps

variable {Token : Type} {libs : AuthLibs Token} {world : World} {call : Call}

@[simp]
theorem returns_perform_iff {R : Type} {step : SeedStep} {t : Seeding R} {s s' : Session Database}
    {r : R} : (perform call step t).Returns s r s' ↔ call.fault step = none ∧ t.Returns s r s' :=
  returns_failing_iff

/-- A constrained write returns when the constraints admit it, and it only changes the current
tables. -/
@[simp]
theorem returns_constrained_iff {R : Type} {f : Database → Option (R × Database)}
    {s s' : Session Database} {r : R} :
    (constrained f).Returns s r s' ↔
      ∃ db, f s.current = some (r, db) ∧ { s with current := db } = s' := by
  unfold constrained
  rw [returns_attempt_iff]
  cases f s.current with
  | none => simp
  | some result => simp

/-- The password of the demo account is not empty, so that it is hashed. -/
theorem hashDemoPassword_eq :
    hashDemoPassword libs call = pure (libs.hashpw demoPassword call.salt) := by
  have hpassword : demoPassword ≠ "" := by decide
  simp only [hashDemoPassword, hashPassword, if_neg hpassword]

/-- The row with another password. -/
def UserRow.withPassword (user : UserRow) (hashedPassword : String) : UserRow :=
  { user with toUser := { user.toUser with hashedPassword } }

/-- The row with another balance. -/
def UserRow.withBalance (user : UserRow) (balance : ℚ) : UserRow :=
  { user with toUser := { user.toUser with balance } }

/-- A pass of the sum of the market values. -/
def addMarketValue (world : World) (marketValue : ℚ) (entry : OpenPosition) : ℚ :=
  marketValue + entry.quantity * world.priceAt entry.symbol

/-- How far a call has come on the database `db₀` it found: the demo user and its rows, with all
other rows as they were. -/
structure Progress (db₀ db : Database) (user : UserRow) (b : Belongings) : Prop where
  found : db.userByName demoUsername = some user
  belongings : db.belongings user.id = b
  others : db.others user.id = db₀.others user.id

namespace Progress

variable {db₀ db db' : Database} {user : UserRow} {b : Belongings}

/-- The next state of the rows, with the users as they were. -/
theorem of_rows (h : Progress db₀ db user b) {b' : Belongings} (husers : db'.users = db.users)
    (hbelongings : db'.belongings user.id = b') (hothers : db'.others user.id = db.others user.id) :
    Progress db₀ db' user b' where
  found := by
    rw [Database.userByName, husers]
    exact h.found
  belongings := hbelongings
  others := hothers.trans h.others

/-- After the three wipes. -/
theorem wipe (h : Progress db₀ db user b) :
    Progress db₀
      (((db.wipe user.id .position).wipe user.id .trade).wipe user.id .equityHistory) user
      Belongings.none := by
  refine h.of_rows rfl Database.belongings_wipe ?_
  rw [(Database.wipe_spec _).2, (Database.wipe_spec _).2, (Database.wipe_spec _).2]

/-- After a row is added. -/
theorem add (h : Progress db₀ db user b) {row : SeedRow}
    (hadd : db.add? call.keys user.id row = some db') : Progress db₀ db' user (b.add row) := by
  obtain ⟨hbelongings, husers, hothers⟩ := Database.add?_spec hadd
  rw [h.belongings] at hbelongings
  exact h.of_rows husers hbelongings hothers

/-- After the password is set. -/
theorem setPassword (h : Progress db₀ db user b) (hashedPassword : String) :
    Progress db₀ (db.setPassword user.id hashedPassword)
      (user.withPassword hashedPassword) b where
  found := by
    rw [Database.setPassword, Database.userByName_updateUser, h.found, Option.map_some,
      UserRow.updated_id]
    rfl
  belongings := h.belongings
  others := (Database.others_updateUser _ _).trans h.others

/-- After the balance is set. -/
theorem setBalance (h : Progress db₀ db user b) (balance : ℚ) :
    Progress db₀ (db.setBalance user.id balance)
      (user.withBalance balance) b where
  found := by
    rw [Database.setBalance, Database.userByName_updateUser, h.found, Option.map_some,
      UserRow.updated_id]
    rfl
  belongings := h.belongings
  others := (Database.others_updateUser _ _).trans h.others

end Progress

/-! #### Every step succeeds -/

section Success

variable {s : Session Database} {db₀ : Database} {user : UserRow} {b : Belongings}

/-- A row that the constraints let in is added. -/
theorem addRow_returns {step : SeedStep} {row : SeedRow} (hfault : call.fault step = none)
    (h : Progress db₀ s.current user b) (haccepts : b.Accepts row) :
    ∃ db, (addRow call step user.id row).Returns s () { s with current := db } ∧
      Progress db₀ db user (b.add row) := by
  rw [← h.belongings] at haccepts
  obtain ⟨db, hdb⟩ := Database.exists_add? call.keys haccepts
  refine ⟨db, ?_, h.add hdb⟩
  rw [addRow, returns_perform_iff, returns_constrained_iff]
  exact ⟨hfault, db, by rw [hdb, Option.map_some], rfl⟩

/-- A loop over rows without a constraint adds all of them. -/
theorem addRows_returns (step : ℕ → SeedStep) (rows : List SeedRow) {i : ℕ}
    (hfault : ∀ j < rows.length, call.fault (step (i + j)) = none)
    (hrows : ∀ row ∈ rows, ∀ b : Belongings, b.Accepts row)
    (h : Progress db₀ s.current user b) :
    ∃ db n, (addRows call step user.id rows i).Returns s n { s with current := db } ∧
      Progress db₀ db user (rows.foldl Belongings.add b) := by
  induction rows generalizing s b i with
  | nil => exact ⟨s.current, i, rfl, h⟩
  | cons row rows ih =>
    rw [List.forall_mem_cons] at hrows
    -- the first pass, then the others with the counter moved on
    have hfirst : call.fault (step i) = none := hfault 0 (by simp)
    obtain ⟨db₁, hrow, h₁⟩ := addRow_returns hfirst h (hrows.1 b)
    have hfault' : ∀ j < rows.length, call.fault (step (i + 1 + j)) = none := by
      intro j hj
      rw [Nat.add_assoc, Nat.add_comm 1 j]
      exact hfault (j + 1) (by simpa using hj)
    obtain ⟨db, n, hloop, hdb⟩ := ih (s := { s with current := db₁ }) hfault' hrows.2 h₁
    refine ⟨db, n, ?_, hdb⟩
    rw [addRows, returns_foldlM_cons_iff]
    refine ⟨i + 1, { s with current := db₁ }, ?_, hloop⟩
    rw [returns_bind_iff]
    exact ⟨(), _, hrow, rfl⟩

/-- The positions of `_OPEN` are added, and their market value is summed up. -/
theorem addPositions_returns (world : World) {entries : List OpenPosition} (marketValue : ℚ)
    (hadd : ∀ entry ∈ entries, call.fault (.addPosition entry.symbol) = none)
    (hprice : ∀ entry ∈ entries, call.fault (.priceAt entry.symbol) = none)
    (hnodup : (entries.map OpenPosition.symbol).Nodup)
    (hnew : ∀ entry ∈ entries, ∀ old ∈ b.positions, old.symbol ≠ entry.symbol)
    (h : Progress db₀ s.current user b) :
    ∃ db, (addPositions world call user.id entries marketValue).Returns s
        (entries.foldl (addMarketValue world) marketValue) { s with current := db } ∧
      Progress db₀ db user { b with positions := b.positions ++ entries.map OpenPosition.row } := by
  induction entries generalizing s b marketValue with
  | nil => exact ⟨s.current, rfl, by simpa using h⟩
  | cons entry entries ih =>
    rw [List.forall_mem_cons] at hadd hprice hnew
    rw [List.map_cons, List.nodup_cons] at hnodup
    have haccepts : b.Accepts (.position entry.row) := hnew.1
    obtain ⟨db₁, hrow, h₁⟩ := addRow_returns hadd.1 h haccepts
    have hnew' : ∀ later ∈ entries, ∀ old ∈ (b.add (.position entry.row)).positions,
        old.symbol ≠ later.symbol := by
      intro later hlater old hold
      rcases List.mem_append.mp hold with hold | hold
      · exact hnew.2 later hlater old hold
      · -- the position just added: its symbol does not occur again
        rw [List.mem_singleton.mp hold]
        intro heq
        have hentry : entry.symbol = later.symbol := heq
        exact hnodup.1 (hentry ▸ List.mem_map_of_mem hlater)
    obtain ⟨db, hloop, hdb⟩ := ih (s := { s with current := db₁ })
      (addMarketValue world marketValue entry) hadd.2 hprice.2 hnodup.2 hnew' h₁
    refine ⟨db, ?_, by simpa [Belongings.add] using hdb⟩
    rw [addPositions, returns_foldlM_cons_iff]
    refine ⟨_, { s with current := db₁ }, ?_, hloop⟩
    simp only [returns_bind_iff, returns_perform_iff, returns_pure_iff]
    exact ⟨(), _, hrow, _, _, ⟨hprice.1, rfl, rfl⟩, rfl, rfl⟩

/-- The prior state is wiped. -/
theorem wipeAll_returns (hfault : ∀ model, call.fault (.wipe model) = none)
    (h : Progress db₀ s.current user b) :
    ∃ db, (wipeAll call user.id).Returns s () { s with current := db } ∧
      Progress db₀ db user Belongings.none := by
  refine ⟨_, ?_, h.wipe⟩
  simp only [wipeAll, List.foldlM_cons, List.foldlM_nil, returns_bind_iff, returns_perform_iff,
    returns_write_iff, returns_pure_iff]
  exact ⟨(), _, ⟨hfault .position, rfl⟩, (), _, ⟨hfault .trade, rfl⟩, (), _,
    ⟨hfault .equityHistory, rfl⟩, trivial, rfl⟩

/-- The demo user is there with its password, whether it is found or created. -/
theorem ensureUser_returns (libs : AuthLibs Token) (hfind : call.fault .findUser = none)
    (hhash : call.fault .hashPassword = none)
    (hinsert : s.current.userByName demoUsername = none → call.fault .insertUser = none ∧
      ∀ row ∈ s.current.users.rows, row.email ≠ some demoEmail) :
    ∃ db user b, (ensureUser libs call).Returns s user.id { s with current := db } ∧
      user.hashedPassword = libs.hashpw demoPassword call.salt ∧
      Progress s.current db user b := by
  cases hfound : s.current.userByName demoUsername with
  | none =>
    obtain ⟨hfault, hemail⟩ := hinsert hfound
    obtain ⟨id, db, hdb⟩ := Database.exists_insertUser? call.keys
      (libs.hashpw demoPassword call.salt) hfound fun row hrow _ => hemail row hrow
    obtain ⟨⟨user, huser, rfl, hpassword⟩, hothers⟩ := Database.insertUser?_spec hfound hdb
    -- whatever rows are left over for the new id are wiped in the next step
    refine ⟨db, user, _, ?_, hpassword, huser, rfl, hothers⟩
    rw [ensureUser, returns_bind_iff]
    refine ⟨none, s, by simp [hfind, hfound], ?_⟩
    simp only [hashDemoPassword_eq, returns_bind_iff, returns_perform_iff, returns_pure_iff,
      returns_constrained_iff]
    exact ⟨_, s, ⟨hhash, rfl, rfl⟩, hfault, db, hdb, rfl⟩
  | some user =>
    have hstart : Progress s.current s.current user (s.current.belongings user.id) :=
      ⟨hfound, rfl, rfl⟩
    refine ⟨_, _, _, ?_, rfl, hstart.setPassword (libs.hashpw demoPassword call.salt)⟩
    rw [ensureUser, returns_bind_iff]
    refine ⟨some user, s, by simp [hfind, hfound], ?_⟩
    simp only [hashDemoPassword_eq, returns_bind_iff, returns_perform_iff, returns_pure_iff,
      returns_write_iff]
    exact ⟨_, s, ⟨hhash, rfl, rfl⟩, (), _, rfl, rfl, rfl⟩

end Success

/-! #### A step that raises ends the call -/

section Failure

variable {s s' : Session Database} {userId : ℕ}

/-- What a call of `ensureUser` that ends has got past. -/
theorem faults_of_ensureUser {id : ℕ} (h : (ensureUser libs call).Returns s id s') :
    call.fault .findUser = none ∧ call.fault .hashPassword = none ∧
      (s.current.userByName demoUsername = none → call.fault .insertUser = none ∧
        ∀ row ∈ s.current.users.rows, row.email ≠ some demoEmail) := by
  simp only [ensureUser, returns_bind_iff, returns_perform_iff, returns_read_iff] at h
  obtain ⟨_, _, ⟨hfind, rfl, rfl⟩, h⟩ := h
  refine ⟨hfind, ?_⟩
  cases hfound : s.current.userByName demoUsername with
  | none =>
    simp only [hfound, hashDemoPassword_eq, returns_bind_iff, returns_perform_iff,
      returns_constrained_iff] at h
    obtain ⟨hashed, _, ⟨hhash, hpure⟩, hfault, db, hinsert, -⟩ := h
    obtain ⟨rfl, rfl⟩ := returns_pure_iff.mp hpure
    refine ⟨hhash, fun _ => ⟨hfault, fun row hrow hemail => ?_⟩⟩
    -- the insertion has succeeded, so nobody has the address
    rw [Database.insertUser?_of_taken hrow hemail] at hinsert
    cases hinsert
  | some user =>
    simp only [hfound, returns_bind_iff, returns_perform_iff] at h
    obtain ⟨_, _, ⟨hhash, -⟩, -⟩ := h
    refine ⟨hhash, fun hnone => ?_⟩
    cases hnone

/-- Every table that the wipe goes through was free of faults when it has returned. -/
theorem faults_of_wipeAll {u : Unit} (h : (wipeAll call userId).Returns s u s')
    (model : WipedModel) : call.fault (.wipe model) = none := by
  simp only [wipeAll, List.foldlM_cons, List.foldlM_nil, returns_bind_iff,
    returns_perform_iff] at h
  obtain ⟨_, _, ⟨hposition, -⟩, _, _, ⟨htrade, -⟩, _, _, ⟨hequity, -⟩, -⟩ := h
  cases model with
  | position => exact hposition
  | trade => exact htrade
  | equityHistory => exact hequity

/-- Rows that were all added met no fault. -/
theorem faults_of_addRows {step : ℕ → SeedStep} {rows : List SeedRow} {i n : ℕ}
    (h : (addRows call step userId rows i).Returns s n s') :
    ∀ j < rows.length, call.fault (step (i + j)) = none := by
  induction rows generalizing s i with
  | nil =>
    intro j hj
    cases hj
  | cons row rows ih =>
    rw [addRows, returns_foldlM_cons_iff] at h
    obtain ⟨_, s₁, hpass, hloop⟩ := h
    simp only [addRow, returns_bind_iff, returns_perform_iff, returns_pure_iff] at hpass
    obtain ⟨_, _, ⟨hfirst, -⟩, rfl, -⟩ := hpass
    intro j hj
    cases j with
    | zero => exact hfirst
    | succ j =>
      rw [← Nat.add_assoc, Nat.add_right_comm]
      exact ih hloop j (by simpa using hj)

/-- Positions that were all added met no fault, and their quotes could be read. -/
theorem faults_of_addPositions {entries : List OpenPosition} {marketValue result : ℚ}
    (h : (addPositions world call userId entries marketValue).Returns s result s') :
    ∀ entry ∈ entries, call.fault (.addPosition entry.symbol) = none ∧
      call.fault (.priceAt entry.symbol) = none := by
  induction entries generalizing s marketValue with
  | nil =>
    intro entry hentry
    cases hentry
  | cons entry entries ih =>
    rw [addPositions, returns_foldlM_cons_iff] at h
    obtain ⟨_, s₁, hpass, hloop⟩ := h
    simp only [addRow, returns_bind_iff, returns_perform_iff] at hpass
    obtain ⟨_, _, ⟨hadd, -⟩, _, _, ⟨hprice, -⟩, -⟩ := hpass
    exact List.forall_mem_cons.mpr ⟨⟨hadd, hprice⟩, ih hloop⟩

end Failure

/-! #### Nothing is committed before the commit -/

theorem tentative_perform {R : Type} {t : Seeding R} (h : t.Tentative) (step : SeedStep) :
    (perform call step t).Tentative := h.failing _

theorem tentative_addRow (step : SeedStep) (userId : ℕ) (row : SeedRow) :
    (addRow call step userId row).Tentative :=
  tentative_perform (tentative_attempt _) step

theorem tentative_addRows (step : ℕ → SeedStep) (userId : ℕ) (rows : List SeedRow) (i : ℕ) :
    (addRows call step userId rows i).Tentative :=
  Tentative.foldlM (fun i row =>
    (tentative_addRow (step i) userId row).bind fun _ => tentative_pure (i + 1)) rows i

/-- The upsert of the user commits nothing. -/
theorem tentative_ensureUser : (ensureUser libs call).Tentative := by
  refine (tentative_perform (tentative_read _) _).bind fun found => ?_
  have hhash : (perform call .hashPassword (hashDemoPassword libs call)).Tentative := by
    rw [hashDemoPassword_eq]
    exact tentative_perform (tentative_pure _) _
  cases found with
  | none => exact hhash.bind fun hashed => tentative_perform (tentative_attempt _) _
  | some user =>
    exact hhash.bind fun hashed => (tentative_write _).bind fun _ => tentative_pure user.id

/-- The seed commits nothing before its end. -/
theorem tentative_seedBody : (seedBody libs world call).Tentative := by
  -- the statements in the order of the source
  refine tentative_ensureUser.bind fun userId => ?_
  refine Tentative.bind (Tentative.foldlM (fun _ model =>
    tentative_perform (tentative_write _) _) _ _) fun _ => ?_
  refine (tentative_perform (tentative_pure _) _).bind fun _ => ?_
  refine (tentative_addRows _ _ _ _).bind fun _ => ?_
  refine Tentative.bind (Tentative.foldlM (fun marketValue entry =>
    (tentative_addRow _ _ _).bind fun _ =>
      (tentative_perform (tentative_pure _) _).bind fun price => tentative_pure _) _ _)
    fun marketValue => ?_
  refine (tentative_write _).bind fun _ => ?_
  refine (tentative_addRows _ _ _ _).bind fun _ => ?_
  exact (tentative_perform (tentative_pure _) _).bind fun _ => tentative_pure userId

end Steps

/-! ### Whole calls -/

/-- The cash of the curated account. -/
def curatedCash (world : World) : ℚ :=
  startCapital - (buildTrades world).openCost + (buildTrades world).realized

/-- The rows of the curated account. -/
def curatedBelongings (world : World) : Belongings where
  positions := openPositions.map OpenPosition.row
  trades := (buildTrades world).trades
  equityHistory := buildEquityCurve world startCapital
    (curatedCash world + openPositions.foldl (addMarketValue world) 0) 60 30

/-- The curated history has the nine trades of seven symbols. -/
theorem length_buildTrades (world : World) : (buildTrades world).trades.length = 9 := rfl

theorem length_buildEquityCurve (world : World) (start last : ℚ) (points days : ℕ) :
    (buildEquityCurve world start last points days).length = points := by
  simp [buildEquityCurve]

/-- The steps that a call takes before its commit when none of them raises. -/
inductive Performs (db : Database) : SeedStep → Prop where
  | findUser : Performs db .findUser
  | hashPassword : Performs db .hashPassword
  | insertUser (h : db.userByName demoUsername = none) : Performs db .insertUser
  | wipe (model : WipedModel) : Performs db (.wipe model)
  | utcnow : Performs db .utcnow
  | addTrade (i : ℕ) (h : i < 9) : Performs db (.addTrade i)
  | addPosition (entry : OpenPosition) (h : entry ∈ openPositions) :
    Performs db (.addPosition entry.symbol)
  | priceAt (entry : OpenPosition) (h : entry ∈ openPositions) :
    Performs db (.priceAt entry.symbol)
  | addEquity (i : ℕ) (h : i < 60) : Performs db (.addEquity i)
  | flush : Performs db .flush

/-- A step raises an exception, or inserts a demo user whose address another user has. -/
def Call.Raises (call : Call) (db : Database) (step : SeedStep) : Prop :=
  call.fault step ≠ none ∨ step = .insertUser ∧ ∃ row ∈ db.users.rows, row.email = some demoEmail

section Calls

variable {Token : Type} {libs : AuthLibs Token} {world : World} {call : Call}
  {s s' : Session Database}

/-- When no step raises, the call reaches its commit with the curated account. -/
theorem seedBody_returns (libs : AuthLibs Token) (world : World)
    (h : ∀ step, Performs s.current step → ¬ call.Raises s.current step) :
    ∃ db user, (seedBody libs world call).Returns s user.id { s with current := db } ∧
      user.hashedPassword = libs.hashpw demoPassword call.salt ∧
      user.balance = world.round2 (curatedCash world) ∧
      Progress s.current db user (curatedBelongings world) := by
  have hfault : ∀ step, Performs s.current step → call.fault step = none := by
    intro step hstep
    by_contra hne
    exact h step hstep (Or.inl hne)
  have hemail : s.current.userByName demoUsername = none →
      ∀ row ∈ s.current.users.rows, row.email ≠ some demoEmail := by
    intro hnone row hrow htaken
    exact h .insertUser (.insertUser hnone) (Or.inr ⟨rfl, row, hrow, htaken⟩)
  -- each step starts in the database that the one before has left
  obtain ⟨db₁, user, b, huser, hpassword, h₁⟩ := ensureUser_returns libs
    (hfault _ .findUser) (hfault _ .hashPassword)
    fun hnone => ⟨hfault _ (.insertUser hnone), hemail hnone⟩
  obtain ⟨db₂, hwipe, h₂⟩ := wipeAll_returns (s := { s with current := db₁ })
    (fun model => hfault _ (.wipe model)) h₁
  obtain ⟨db₃, n₃, htrades, h₃⟩ := addRows_returns (s := { s with current := db₂ }) (i := 0)
    .addTrade ((buildTrades world).trades.map .trade)
    (fun j hj => hfault _ (.addTrade _ (by simpa [length_buildTrades] using hj)))
    (by simp [Belongings.Accepts]) h₂
  rw [Belongings.foldl_add_trades] at h₃
  obtain ⟨db₄, hpositions, h₄⟩ := addPositions_returns
    (s := { s with current := db₃ }) world 0
    (fun entry hentry => hfault _ (.addPosition entry hentry))
    (fun entry hentry => hfault _ (.priceAt entry hentry)) (by decide)
    (by simp [Belongings.none]) h₃
  -- from here on the user is the one with the curated balance
  have h₅ := h₄.setBalance (world.round2 (curatedCash world))
  obtain ⟨db₆, n₆, hcurve, h₆⟩ := addRows_returns
    (s := { s with current := db₄.setBalance user.id (world.round2 (curatedCash world)) })
    (i := 0) .addEquity ((curatedBelongings world).equityHistory.map .equityHistory)
    (fun j hj => hfault _ (.addEquity _
      (by simpa [curatedBelongings, length_buildEquityCurve] using hj)))
    (by simp [Belongings.Accepts]) h₅
  rw [Belongings.foldl_add_equity] at h₆
  refine ⟨db₆, user.withBalance (world.round2 (curatedCash world)), ?_, hpassword, rfl, h₆⟩
  simp only [seedBody, returns_bind_iff, returns_perform_iff, returns_pure_iff, returns_write_iff]
  exact ⟨_, _, huser, (), _, hwipe, (), _, ⟨hfault _ .utcnow, trivial, rfl⟩, _, _, htrades, _, _,
    hpositions, (), _, rfl, _, _, hcurve, (), _, ⟨hfault _ .flush, trivial, rfl⟩, rfl, rfl⟩

/-- A call that reaches its commit has got past every step without an exception. -/
theorem not_raises_of_seedBody {id : ℕ} (h : (seedBody libs world call).Returns s id s') :
    ∀ step, Performs s.current step → ¬ call.Raises s.current step := by
  simp only [seedBody, returns_bind_iff, returns_perform_iff] at h
  obtain ⟨userId, _, huser, _, _, hwipe, _, _, ⟨hutcnow, -⟩, _, _, htrades, _, _, hpositions, _, _,
    -, _, _, hcurve, _, _, ⟨hflush, -⟩, -⟩ := h
  obtain ⟨hfind, hhash, hinsert⟩ := faults_of_ensureUser huser
  have hrows := faults_of_addRows htrades
  have hpoints := faults_of_addRows hcurve
  simp only [List.length_map, length_buildTrades, Nat.zero_add] at hrows
  simp only [List.length_map, length_buildEquityCurve, Nat.zero_add] at hpoints
  rintro step hstep (hfault | ⟨rfl, row, hrow, hemail⟩)
  -- one case for each step that the program has got past
  · refine hfault ?_
    cases hstep with
    | findUser => exact hfind
    | hashPassword => exact hhash
    | insertUser hnone => exact (hinsert hnone).1
    | wipe model => exact faults_of_wipeAll hwipe model
    | utcnow => exact hutcnow
    | addTrade i hi => exact hrows i hi
    | addPosition entry hentry => exact (faults_of_addPositions hpositions entry hentry).1
    | priceAt entry hentry => exact (faults_of_addPositions hpositions entry hentry).2
    | addEquity i hi => exact hpoints i hi
    | flush => exact hflush
  · cases hstep with
    | insertUser hnone => exact (hinsert hnone).2 row hrow hemail

/-- A call that reaches its commit has committed, whatever comes after it. -/
theorem committed_seedDemoAccount {id : ℕ} (h : (seedBody libs world call).Returns s id s') :
    (seedDemoAccount libs world call s).2.committed = s'.current ∧
      (call.fault .reload = none → (seedDemoAccount libs world call s).1 = .ok id) := by
  refine ⟨committed_orRollback h (tentative_perform (tentative_pure id) .reload), fun hreload => ?_⟩
  have hreturns :
      (seedDemoAccount libs world call).Returns s id { s' with committed := s'.current } := by
    simp only [seedDemoAccount, returns_orRollback_iff, returns_bind_iff, returns_commit_iff,
      returns_perform_iff, returns_pure_iff]
    exact ⟨id, s', h, (), _, rfl, hreload, rfl, rfl⟩
  exact congrArg Prod.fst hreturns

end Calls

/-! ### Independence from the past -/

/-- What an account shows, its rows as multisets, with the passwords it is opened by. -/
@[ext]
structure Snapshot where
  balance : ℚ
  accepted : Set String
  positions : Multiset (Position ℚ)
  trades : Multiset TradeColumns
  equityHistory : Multiset (EquityHistory ℚ)

section Reset

variable {Token : Type} (libs : AuthLibs Token)

/-- The account of a user. -/
def Database.snapshot (user : UserRow) (db : Database) : Snapshot where
  balance := user.balance
  accepted := { password | verifyPassword libs password user.hashedPassword = true }
  positions := (db.belongings user.id).positions
  trades := (db.belongings user.id).trades
  equityHistory := (db.belongings user.id).equityHistory

/-- The curated account. bcrypt accepts the passwords with the key of the demo password. -/
def curatedSnapshot {Key : Type} (key : String → Key) (world : World) : Snapshot where
  balance := world.round2 (curatedCash world)
  accepted := { password | password ≠ "" ∧ key password = key demoPassword }
  positions := (curatedBelongings world).positions
  trades := (curatedBelongings world).trades
  equityHistory := (curatedBelongings world).equityHistory

/-- The curated account holds five positions, nine trades and sixty points. -/
theorem card_curatedSnapshot {Key : Type} (key : String → Key) (world : World) :
    (curatedSnapshot key world).positions.card = 5 ∧ (curatedSnapshot key world).trades.card = 9 ∧
      (curatedSnapshot key world).equityHistory.card = 60 := by
  refine ⟨rfl, rfl, ?_⟩
  simp [curatedSnapshot, curatedBelongings, length_buildEquityCurve]

/-- Every database state is reset to the same account. When no step before the commit raises, the
demo user's balance, passwords and rows depend on the clock and the prices alone, and the rows of
every other user are the ones before. When one of these steps raises, the call raises and nothing
is committed. bcrypt enters with the key that it takes from a password; a hash is accepted with the
passwords of its key, whatever the salt. -/
theorem seedDemoAccount_resets {Key : Type} (key : String → Key)
    (hhash : ∀ password salt, libs.hashpw password salt ≠ "")
    (hcheck : ∀ password hashed salt,
      libs.checkpw password (libs.hashpw hashed salt) = true ↔ key password = key hashed)
    (world : World) (call : Call) (session : Session Database) :
    ((∀ step, Performs session.current step → ¬ call.Raises session.current step) →
      ∃ user,
        (seedDemoAccount libs world call session).2.committed.userByName demoUsername = some user ∧
        (seedDemoAccount libs world call session).2.committed.snapshot libs user =
          curatedSnapshot key world ∧
        (seedDemoAccount libs world call session).2.committed.others user.id =
          session.current.others user.id ∧
        (call.fault .reload = none →
          (seedDemoAccount libs world call session).1 = .ok user.id)) ∧
    ((∃ step, Performs session.current step ∧ call.Raises session.current step) →
      ∃ error, seedDemoAccount libs world call session = (.error error, session.rolledBack)) := by
  constructor
  · intro hsteps
    obtain ⟨db, user, hreturns, hpassword, hbalance, hprogress⟩ :=
      seedBody_returns libs world hsteps
    obtain ⟨hcommitted, hresult⟩ := committed_seedDemoAccount hreturns
    rw [hcommitted]
    refine ⟨user, hprogress.found, ?_, hprogress.others, hresult⟩
    -- column by column; the hash is opened by the passwords with the key of the demo password
    ext password
    all_goals simp only [Database.snapshot, curatedSnapshot, hprogress.belongings]
    · exact hbalance
    · have hne : libs.hashpw demoPassword call.salt ≠ "" := hhash _ _
      by_cases hempty : password = ""
      · simp [verifyPassword, hempty]
      · simp [verifyPassword, hpassword, hempty, hne, hcheck]
  · rintro ⟨step, hstep, hraises⟩
    -- a body that ended would have got past the step
    have hbody : ¬ ∃ id s', (seedBody libs world call).Returns session id s' := by
      rintro ⟨id, s', hreturns⟩
      exact not_raises_of_seedBody hreturns step hstep hraises
    obtain ⟨error, s', herror⟩ := exists_raises_of_not_returns hbody
    exact ⟨error, tentative_seedBody.orRollback_of_raises herror⟩

end Reset

/-! ### A visited account -/

/-- Libraries with a hash that starts with a character of its salt. -/
def saltedLibs : AuthLibs Claims :=
  { transparentLibs with
    hashpw := fun password salt => String.ofList (salt.toList.headD '.' :: password.toList)
    checkpw := fun password hashed => decide (hashed.toList.tail = password.toList) }

/-- The first day of the epoch, with flat prices and no noise. -/
def flatWorld : World where
  now := 0
  priceAt _ := 200
  round2 x := x
  sin _ := 0
  pi := 3
  random _ := 1 / 2
  days x := ⌊x * 86400000000⌋

/-- The demo account after a visitor has traded, next to another account. -/
def visitedDatabase : Database where
  users :=
    { rows :=
        [{ id := 1, username := "demo", hashedPassword := "guess", balance := 12,
           email := some demoEmail },
         { id := 2, username := "alice", hashedPassword := "hash", balance := 500, email := none }]
      distinct := by decide }
  positions :=
    { rows := [⟨1, 1, ⟨"AAPL", 3, 190⟩⟩, ⟨2, 2, ⟨"AAPL", 7, 210⟩⟩, ⟨3, 1, ⟨"GME", 1, 20⟩⟩]
      distinct := by decide }
  trades := Table.empty
  equityHistory := { rows := [⟨1, 1, ⟨12, 5⟩⟩, ⟨2, 2, ⟨500, 6⟩⟩], distinct := by decide }

/-- A call whose steps raise the exception `fault`. -/
def visit (fault : SeedStep → Option SeedError) : Call where
  salt := "x"
  keys := KeySource.afterLast
  fault := fault

/-- The visited account is reset; a price that cannot be read leaves it as it is. -/
theorem seedDemoAccount_resets_visited :
    (∃ user,
      (seedDemoAccount saltedLibs flatWorld (visit fun _ => none)
        (Session.opened visitedDatabase)).2.committed.userByName demoUsername = some user ∧
      (seedDemoAccount saltedLibs flatWorld (visit fun _ => none)
        (Session.opened visitedDatabase)).2.committed.snapshot saltedLibs user =
          curatedSnapshot id flatWorld ∧
      (seedDemoAccount saltedLibs flatWorld (visit fun _ => none)
        (Session.opened visitedDatabase)).2.committed.others user.id =
          visitedDatabase.others user.id ∧
      (seedDemoAccount saltedLibs flatWorld (visit fun _ => none)
        (Session.opened visitedDatabase)).1 = .ok user.id) ∧
    ∃ error, seedDemoAccount saltedLibs flatWorld
      (visit fun step => if step = .priceAt "AMZN" then some (.raised step) else none)
      (Session.opened visitedDatabase) = (.error error, Session.opened visitedDatabase) := by
  have hhash : ∀ password salt, saltedLibs.hashpw password salt ≠ "" := by
    intro password salt h
    simpa [saltedLibs] using congrArg String.toList h
  have hcheck : ∀ password hashed salt,
      saltedLibs.checkpw password (saltedLibs.hashpw hashed salt) = true ↔
        id password = id hashed := by
    intro password hashed salt
    simp [saltedLibs, eq_comm, String.toList_inj]
  constructor
  · obtain ⟨user, hfound, hsnapshot, hothers, hresult⟩ :=
      (seedDemoAccount_resets saltedLibs id hhash hcheck flatWorld (visit fun _ => none)
        (Session.opened visitedDatabase)).1 (by
          rintro step hstep (hfault | ⟨rfl, -⟩)
          · exact hfault rfl
          · cases hstep with
            | insertUser hnone => exact absurd hnone (by decide))
    exact ⟨user, hfound, hsnapshot, hothers, hresult rfl⟩
  · refine (seedDemoAccount_resets saltedLibs id hhash hcheck flatWorld _
      (Session.opened visitedDatabase)).2 ⟨.priceAt "AMZN", ?_, Or.inl ?_⟩
    · exact .priceAt ⟨"AMZN", 30, 200⟩ (by simp [openPositions])
    · simp [visit]

end Demo

end TradingSimulator
