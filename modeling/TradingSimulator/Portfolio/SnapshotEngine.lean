import TradingSimulator.Library.Runs
import TradingSimulator.Portfolio.SnapshotFailures
import TradingSimulator.Seed.DemoReset

/-!
# The equity snapshot engine

`_snapshot_all_users` (`app/portfolio/equity_snapshot_engine.py`) on the tables of all users, and
the other writers of the equity history of a user: the snapshot at the end of `POST /trades` and
`POST /account/reset` (`app/api/routes.py`). Every read, and every commit, may raise an exception.

A pass of the engine does for each user what it would do for this user alone
(`snapshotAllUsers_spec`), so that the history of a user is the same whatever goes wrong for the
others (`belongings_runPasses_eq`). In whatever order the writers run, the snapshots of a user are
at least the cooldown apart (`spaced_run`).
-/

namespace TradingSimulator.SnapshotEngine

open Transactions Demo

/-! ### One user -/

/-- What may raise an exception when the snapshot of a user is taken. -/
inductive SnapshotStep where
  | history
  | read (query : EquityQuery)
  | commit
  deriving DecidableEq

/-- What a pass of the engine meets: generated keys, the clock and the quotes when it comes to a
user, and the exceptions. -/
structure Pass where
  keys : KeySource
  now : ℕ → ℤ
  prices : ℕ → String → Option ℚ
  /-- The exception of the query for the ids of all users. -/
  listFault : Option DbError
  fault : ℕ → SnapshotStep → Option DbError

/-- An answer, or the exception in its place. -/
def answerOr {A : Type} (fault : Option DbError) (answer : A) : Except DbError A :=
  match fault with
  | some error => .error error
  | none => .ok answer

/-- The row of a user in the users table. -/
def account (userId : ℕ) (db : Demo.Database) : Option UserRow :=
  KeyedRows.lookup (fun row : UserRow => row.id) userId db.users.rows

namespace Pass

/-- The reads of `calculate_total_equity`. -/
def reads (pass : Pass) (userId : ℕ) (db : Demo.Database) : EquityReads ℚ where
  user := answerOr (pass.fault userId (.read .user))
    ((account userId db).map fun row => row.balance)
  positions := answerOr (pass.fault userId (.read .positions)) (db.positions.owned userId)
  prices := answerOr (pass.fault userId (.read .prices)) (pass.prices userId)

/-- The row that `record_equity_snapshot` adds. -/
def snapshotRow (pass : Pass) (userId : ℕ) (db : Demo.Database) : Option (EquityHistory ℚ) :=
  (recordEquitySnapshot
    (answerOr (pass.fault userId .history) (db.equityHistory.owned userId))
    (pass.reads userId db) (pass.now userId)).2

/-- `record_equity_snapshot` in a session. -/
def recordSnapshot (pass : Pass) (userId : ℕ) : Transaction Demo.Database DbError Unit := do
  let row ← Transaction.read (pass.snapshotRow userId)
  match row with
  | none => pure ()
  | some row =>
    Transaction.attempt fun db =>
      match db.add? pass.keys userId (.equityHistory row) with
      | some db' => .ok ((), db')
      | none => .error .queryFailed

/-- The snapshot of one user: whether it was committed, with a rollback when it was not. -/
def snapshotUser (pass : Pass) (userId : ℕ) : Transaction Demo.Database DbError Bool := fun s =>
  let body : Transaction Demo.Database DbError Unit := do
    pass.recordSnapshot userId
    Transaction.failing (pass.fault userId .commit) Transaction.commit
  match body s with
  | (.ok _, s') => (.ok true, s')
  | (.error _, s') => (.ok false, s'.rolledBack)

/-- `_snapshot_all_users`. -/
def snapshotAllUsers (pass : Pass) : Transaction Demo.Database DbError ℕ := do
  let userIds ← Transaction.failing pass.listFault
    (Transaction.read fun db => db.users.rows.map fun row => row.id)
  userIds.foldlM (fun written userId => do
    let committed ← pass.snapshotUser userId
    pure (if committed then written + 1 else written)) 0

/-- The snapshots of a user that are stored: the row that is due, if its commit succeeds. -/
def recorded (pass : Pass) (userId : ℕ) (db : Demo.Database) : List (EquityHistory ℚ) :=
  if pass.fault userId .commit = none then (pass.snapshotRow userId db).toList else []

end Pass

/-! ### What a pass does -/

section Pass

variable {pass : Pass} {userId : ℕ} {db db' : Demo.Database}

/-- The rows of a user are among those that are not another's. -/
theorem belongings_eq_of_others {other : ℕ} (h : db'.others userId = db.others userId)
    (hne : other ≠ userId) : db'.belongings other = db.belongings other := by
  have howned : ∀ {C : Type} {Same : C → C → Prop} {t t' : OwnedTable C Same},
      t'.others userId = t.others userId → t'.owned other = t.owned other := by
    intro C Same t t' ht
    -- the rows of another user survive when those of this one are taken out
    have hfilter : ∀ t : OwnedTable C Same, t.owned other =
        ((t.others userId).filter fun row => row.userId = other).map OwnedRow.columns := by
      intro t
      rw [OwnedTable.others, List.filter_filter, OwnedTable.owned]
      congr 1
      refine List.filter_congr fun row _ => ?_
      by_cases hrow : row.userId = other
      · simp [hrow, hne]
      · simp [hrow]
    rw [hfilter, hfilter, ht]
  simp only [Demo.Database.others, Others.mk.injEq] at h
  simp only [Demo.Database.belongings, Belongings.mk.injEq]
  exact ⟨howned h.2.1, howned h.2.2.1, howned h.2.2.2⟩

/-- The snapshot of a user depends on the rows of this user only. -/
theorem recorded_congr (haccount : account userId db' = account userId db)
    (hrows : db'.belongings userId = db.belongings userId) :
    pass.recorded userId db' = pass.recorded userId db := by
  simp only [Demo.Database.belongings, Belongings.mk.injEq] at hrows
  simp only [Pass.recorded, Pass.snapshotRow, Pass.reads, haccount, hrows.1, hrows.2.2]

/-- The row that is due is never refused: its key is generated. -/
theorem recordSnapshot_returns (pass : Pass) (userId : ℕ) (db : Demo.Database) :
    ∃ db', (pass.recordSnapshot userId).Returns (Session.opened db) ()
        { committed := db, current := db' } ∧
      db'.users = db.users ∧ db'.others userId = db.others userId ∧
      db'.belongings userId =
        { db.belongings userId with
          equityHistory :=
            db.equityHistory.owned userId ++ (pass.snapshotRow userId db).toList } := by
  unfold Pass.recordSnapshot
  simp only [Transaction.returns_bind_iff, Transaction.returns_read_iff]
  cases hrow : pass.snapshotRow userId db with
  | none =>
    refine ⟨db, ⟨none, Session.opened db, ⟨hrow, rfl⟩, ?_⟩, rfl, rfl, ?_⟩
    · exact Transaction.returns_pure_iff.mpr ⟨rfl, rfl⟩
    · simp [Demo.Database.belongings]
  | some row =>
    -- no constraint of the history table is about its columns
    have haccepts : (db.belongings userId).Accepts (.equityHistory row) := trivial
    obtain ⟨db', hadd⟩ := Demo.Database.exists_add? pass.keys haccepts
    obtain ⟨hbelongings, husers, hothers⟩ := Demo.Database.add?_spec hadd
    refine ⟨db', ⟨some row, Session.opened db, ⟨hrow, rfl⟩, ?_⟩, husers, hothers, ?_⟩
    · refine Transaction.returns_attempt_iff.mpr ⟨db', ?_, rfl⟩
      simp only [Session.opened, hadd]
    · rw [hbelongings]
      simp [Belongings.add, Demo.Database.belongings]

/-- The snapshot of one user adds the row that is due and leaves everything else alone. -/
theorem snapshotUser_spec (pass : Pass) (userId : ℕ) (db : Demo.Database) :
    ∃ db', pass.snapshotUser userId (Session.opened db) =
        (.ok (pass.fault userId .commit = none), Session.opened db') ∧
      db'.users = db.users ∧ db'.others userId = db.others userId ∧
      db'.belongings userId =
        { db.belongings userId with
          equityHistory := db.equityHistory.owned userId ++ pass.recorded userId db } := by
  obtain ⟨db', hrecord, husers, hothers, hbelongings⟩ := recordSnapshot_returns pass userId db
  unfold Pass.snapshotUser
  simp only [Transaction.bind_apply, show pass.recordSnapshot userId (Session.opened db) = _ from
    hrecord]
  cases hfault : pass.fault userId .commit with
  | none =>
    refine ⟨db', ?_, husers, hothers, ?_⟩
    · simp [Transaction.failing, Transaction.commit, Session.opened]
    · rw [hbelongings, Pass.recorded, if_pos hfault]
  | some error =>
    -- the row that was added is rolled back
    refine ⟨db, ?_, rfl, rfl, ?_⟩
    · simp [Transaction.failing, Transaction.raise, Session.rolledBack]
    · simp [Pass.recorded, hfault, Demo.Database.belongings]

/-- The loop over the users, each of which has its own rows in view. -/
theorem foldlM_snapshotUser (pass : Pass) {userIds : List ℕ} (hnodup : userIds.Nodup)
    (db : Demo.Database) (written : ℕ) :
    ∃ db', (userIds.foldlM (fun written userId => do
          let committed ← pass.snapshotUser userId
          pure (if committed then written + 1 else written)) written :
            Transaction Demo.Database DbError ℕ) (Session.opened db) =
        (.ok (written + userIds.countP fun userId => pass.fault userId .commit = none),
          Session.opened db') ∧
      db'.users = db.users ∧
      ∀ userId, db'.belongings userId =
        { db.belongings userId with
          equityHistory := db.equityHistory.owned userId ++
            if userId ∈ userIds then pass.recorded userId db else [] } := by
  induction userIds generalizing db written with
  | nil => exact ⟨db, rfl, rfl, fun userId => by simp [Demo.Database.belongings]⟩
  | cons first userIds ih =>
    obtain ⟨hfirst, hnodup⟩ := List.nodup_cons.mp hnodup
    obtain ⟨db₁, hsnapshot, husers, hothers, hbelongings⟩ := snapshotUser_spec pass first db
    obtain ⟨db', hloop, husers', hbelongings'⟩ :=
      ih hnodup db₁ (if (decide (pass.fault first .commit = none)) then written + 1 else written)
    refine ⟨db', ?_, husers'.trans husers, fun userId => ?_⟩
    · rw [List.foldlM_cons, Transaction.bind_apply, Transaction.bind_apply, hsnapshot]
      refine hloop.trans ?_
      rw [List.countP_cons]
      cases pass.fault first .commit with
      | none =>
        simp only [decide_true, ↓reduceIte, Prod.mk.injEq, Except.ok.injEq, and_true]
        omega
      | some error => simp
    · rw [hbelongings' userId]
      have howned : ∀ db : Demo.Database,
          db.equityHistory.owned userId = (db.belongings userId).equityHistory := fun _ => rfl
      by_cases hfirst' : userId = first
      · subst hfirst'
        simp [hfirst, howned, hbelongings]
      · -- the rows of this user are still those before the pass
        have hsame := belongings_eq_of_others hothers hfirst'
        have haccount : account userId db₁ = account userId db := by rw [account, account, husers]
        simp only [howned, hsame, List.mem_cons, hfirst', false_or, recorded_congr haccount hsame]

/-- A pass of the engine comes to a user. -/
def Pass.Reaches (pass : Pass) (db : Demo.Database) (userId : ℕ) : Prop :=
  pass.listFault = none ∧ userId ∈ db.users.rows.map fun row => row.id

instance (pass : Pass) (db : Demo.Database) (userId : ℕ) : Decidable (pass.Reaches db userId) :=
  inferInstanceAs (Decidable (_ ∧ _))

/-- The engine comes to those who have a row in the users table. -/
theorem reaches_iff (pass : Pass) (db : Demo.Database) (userId : ℕ) :
    pass.Reaches db userId ↔ pass.listFault = none ∧ (account userId db).isSome = true := by
  rw [Pass.Reaches, account, KeyedRows.isSome_lookup_iff]

/-- Whatever goes wrong for some of the users, a pass stores for each user what it would store for
this user alone, touches nothing else, and counts the users whose commit has succeeded. -/
theorem snapshotAllUsers_spec (pass : Pass) (db : Demo.Database) :
    let result := pass.snapshotAllUsers (Session.opened db)
    (result.1 =
      match pass.listFault with
      | some error => .error error
      | none => .ok ((db.users.rows.map fun row => row.id).countP fun userId =>
          pass.fault userId .commit = none)) ∧
      result.2.committed.users = db.users ∧
      ∀ userId, result.2.committed.belongings userId =
        { db.belongings userId with
          equityHistory := db.equityHistory.owned userId ++
            if pass.Reaches db userId then pass.recorded userId db else [] } := by
  have hnodup : (db.users.rows.map fun row => row.id).Nodup :=
    List.pairwise_map.mpr (db.users.distinct.imp fun hclash hid => hclash (Or.inl hid))
  unfold Pass.snapshotAllUsers
  cases hlist : pass.listFault with
  | some error =>
    refine ⟨rfl, rfl, fun userId => ?_⟩
    simp [Pass.Reaches, hlist, Transaction.bind_apply, Transaction.failing, Transaction.raise,
      Demo.Database.belongings, Session.opened]
  | none =>
    obtain ⟨db', hloop, husers, hbelongings⟩ := foldlM_snapshotUser pass hnodup db 0
    have hrun : (Transaction.failing none
          (Transaction.read fun db : Demo.Database => db.users.rows.map fun row => row.id) >>=
        fun userIds => userIds.foldlM (fun written userId => do
          let committed ← pass.snapshotUser userId
          pure (if committed then written + 1 else written)) 0) (Session.opened db) = _ := hloop
    rw [hrun]
    refine ⟨by simp, husers, fun userId => ?_⟩
    rw [show (Session.opened db').committed = db' from rfl, hbelongings userId]
    simp [Pass.Reaches, hlist]

end Pass

/-! ### Passes one after the other -/

/-- Two passes meet the same when they come to a user. -/
structure AgreeFor (userId : ℕ) (pass pass' : Pass) : Prop where
  now : pass.now userId = pass'.now userId
  prices : pass.prices userId = pass'.prices userId
  listFault : pass.listFault = pass'.listFault
  fault : pass.fault userId = pass'.fault userId

/-- The database after a number of passes. -/
def runPasses (passes : List Pass) (db : Demo.Database) : Demo.Database :=
  passes.foldl (fun db pass => (pass.snapshotAllUsers (Session.opened db)).2.committed) db

/-- Whatever the passes meet for the other users, and whatever the rows of the others are in every
table, the rows of a user after them are the same. -/
theorem belongings_runPasses_eq {userId : ℕ} {passes passes' : List Pass}
    (h : List.Forall₂ (AgreeFor userId) passes passes') {db db' : Demo.Database}
    (haccount : account userId db = account userId db')
    (hrows : db.belongings userId = db'.belongings userId) :
    account userId (runPasses passes db) = account userId (runPasses passes' db') ∧
      (runPasses passes db).belongings userId = (runPasses passes' db').belongings userId := by
  induction h generalizing db db' with
  | nil => exact ⟨haccount, hrows⟩
  | @cons pass pass' passes passes' hagree _ ih =>
    obtain ⟨-, hafter, hbelongings⟩ := snapshotAllUsers_spec pass db
    obtain ⟨-, hafter', hbelongings'⟩ := snapshotAllUsers_spec pass' db'
    -- a pass leaves the users table alone
    refine ih (by rw [account, hafter, account, hafter']; exact haccount) ?_
    rw [hbelongings userId, hbelongings' userId]
    have hrecorded : pass.recorded userId db = pass'.recorded userId db' := by
      rw [recorded_congr haccount hrows]
      simp only [Pass.recorded, Pass.snapshotRow, Pass.reads, hagree.now, hagree.prices,
        hagree.fault]
    have hreaches : pass.Reaches db userId ↔ pass'.Reaches db' userId := by
      rw [reaches_iff, reaches_iff, hagree.listFault, haccount]
    have howned : db.equityHistory.owned userId = db'.equityHistory.owned userId :=
      congrArg Belongings.equityHistory hrows
    simp only [hrows, hrecorded, hreaches, howned]

/-- A pass at a time, on which the commits of all but the first user may fail. -/
def passAt (now : ℤ) (fault : Option DbError) : Pass where
  keys := KeySource.afterLast
  now _ := now
  prices _ _ := some 200
  listFault := none
  fault userId step := if userId ≠ 1 ∧ step = .commit then fault else none

/-- The same visitor of the demo account, with another neighbour who holds nothing. -/
def quietDatabase : Demo.Database where
  users :=
    { rows :=
        [{ id := 7, username := "bob", hashedPassword := "hash", balance := 0, email := none },
         { id := 1, username := "demo", hashedPassword := "guess", balance := 12,
           email := some demoEmail }]
      distinct := by decide }
  positions :=
    { rows := [⟨1, 1, ⟨"AAPL", 3, 190⟩⟩, ⟨3, 1, ⟨"GME", 1, 20⟩⟩]
      distinct := by decide }
  trades := Table.empty
  equityHistory := { rows := [⟨1, 1, ⟨12, 5⟩⟩], distinct := by decide }

/-- The visitor has the same rows after two passes next to either neighbour. -/
theorem belongings_runPasses_visited :
    account 1 (runPasses [passAt 10 none, passAt 9000000 none] visitedDatabase) =
        account 1 (runPasses [passAt 10 (some .queryFailed), passAt 9000000 (some .queryFailed)]
          quietDatabase) ∧
      (runPasses [passAt 10 none, passAt 9000000 none] visitedDatabase).belongings 1 =
        (runPasses [passAt 10 (some .queryFailed), passAt 9000000 (some .queryFailed)]
          quietDatabase).belongings 1 := by
  have hagree : ∀ now, AgreeFor 1 (passAt now none) (passAt now (some .queryFailed)) := fun now =>
    ⟨rfl, rfl, rfl, rfl⟩
  exact belongings_runPasses_eq (.cons (hagree 10) (.cons (hagree 9000000) .nil)) rfl rfl

/-! ### Resets -/

/-- The statements of `reset_account`. -/
inductive ResetStep where
  | wipe (model : WipedModel)
  | findUser
  | commit
  deriving DecidableEq

/-- The balance of the user row, if there is one, is set to the starting balance. -/
def restoreBalance (settings : Settings) (userId : ℕ) (row : Option UserRow) (db : Demo.Database) :
    Demo.Database :=
  match row with
  | none => db
  | some _ => db.setBalance userId settings.defaultUserBalance

/-- `reset_account`. -/
def resetAccount (settings : Settings) (fault : ResetStep → Option DbError) (userId : ℕ) :
    Transaction Demo.Database DbError Unit := do
  [WipedModel.position, .trade, .equityHistory].foldlM (fun _ model =>
    Transaction.failing (fault (.wipe model))
      (Transaction.write (Demo.Database.wipe userId model))) ()
  let row ← Transaction.failing (fault .findUser) (Transaction.read (account userId))
  Transaction.write (restoreBalance settings userId row)
  Transaction.failing (fault .commit) Transaction.commit

/-- The database that a reset leaves. -/
def cleared (settings : Settings) (userId : ℕ) (db : Demo.Database) : Demo.Database :=
  let wiped := ((db.wipe userId .position).wipe userId .trade).wipe userId .equityHistory
  restoreBalance settings userId (account userId wiped) wiped

/-- A reset is all or nothing. -/
theorem committed_resetAccount (settings : Settings) (fault : ResetStep → Option DbError)
    (userId : ℕ) (db : Demo.Database) :
    (resetAccount settings fault userId (Session.opened db)).2.committed =
        cleared settings userId db ∨
      (resetAccount settings fault userId (Session.opened db)).2.committed = db := by
  unfold resetAccount
  simp only [List.foldlM_cons, List.foldlM_nil, Transaction.bind_apply]
  -- the first statement that raises is the last one
  cases fault (.wipe .position) with
  | some error => exact .inr rfl
  | none =>
    cases fault (.wipe .trade) with
    | some error => exact .inr rfl
    | none =>
      cases fault (.wipe .equityHistory) with
      | some error => exact .inr rfl
      | none =>
        cases fault .findUser with
        | some error => exact .inr rfl
        | none =>
          cases fault .commit with
          | some error => exact .inr rfl
          | none => exact .inl rfl

/-- A reset clears the history of the user. -/
theorem equityHistory_cleared (settings : Settings) (userId : ℕ) (db : Demo.Database) :
    (cleared settings userId db).equityHistory = db.equityHistory.clear userId := by
  unfold cleared restoreBalance
  dsimp only
  split <;> rfl

/-! ### Runs -/

/-- A request or a pass of the engine that may write to the equity history. -/
inductive HistoryCall where
  | pass (pass : Pass)
  /-- The snapshot at the end of `POST /trades`. -/
  | snapshot (pass : Pass) (userId : ℕ)
  | reset (fault : ResetStep → Option DbError) (userId : ℕ)

/-- The database after a call. -/
def historyStep (settings : Settings) (db : Demo.Database) : HistoryCall → Demo.Database
  | .pass pass => (pass.snapshotAllUsers (Session.opened db)).2.committed
  | .snapshot pass userId => (pass.snapshotUser userId (Session.opened db)).2.committed
  | .reset fault userId => (resetAccount settings fault userId (Session.opened db)).2.committed

/-- Every snapshot is taken after the cooldown of the ones before it. -/
def Spaced (history : List (EquityHistory ℚ)) : Prop :=
  (history.map EquityHistory.timestamp).Pairwise fun earlier later =>
    earlier + snapshotCooldown ≤ later

/-- No snapshot is later than the latest one. -/
theorem latestSnapshot_spec (history : List (EquityHistory ℚ)) :
    (latestSnapshot history = none → history = []) ∧
      ∀ last ∈ latestSnapshot history, ∀ row ∈ history, row.timestamp ≤ last.timestamp := by
  induction history using List.reverseRecOn with
  | nil => simp [latestSnapshot]
  | append_singleton history row ih =>
    -- the loop keeps the best row so far, and replaces it by a later one only
    have hlast : latestSnapshot (history ++ [row]) =
        some (((latestSnapshot history).map fun best =>
          if best.timestamp < row.timestamp then row else best).getD row) := by
      rw [latestSnapshot, List.foldl_append, List.foldl_cons, List.foldl_nil, ← latestSnapshot]
      cases latestSnapshot history with
      | none => rfl
      | some best => exact (apply_ite some _ _ _).symm
    rw [hlast]
    refine ⟨nofun, fun last hmem other hother => ?_⟩
    rw [Option.mem_some_iff] at hmem
    subst hmem
    cases hlatest : latestSnapshot history with
    | none =>
      rw [ih.1 hlatest, List.nil_append, List.mem_singleton] at hother
      rw [hother]
      rfl
    | some best =>
      rw [Option.map_some, Option.getD_some]
      rcases List.mem_append.mp hother with h | h
      · -- a row from before
        have hbest := ih.2 best hlatest other h
        split_ifs with hlater
        · exact hbest.trans hlater.le
        · exact hbest
      · rw [List.mem_singleton.mp h]
        split_ifs with hlater
        · rfl
        · exact not_lt.mp hlater

/-- A snapshot that is due comes after the cooldown, whatever the clock says. -/
theorem spaced_recorded (pass : Pass) (userId : ℕ) (db : Demo.Database)
    (h : Spaced (db.equityHistory.owned userId)) :
    Spaced (db.equityHistory.owned userId ++ pass.recorded userId db) := by
  unfold Pass.recorded Pass.snapshotRow
  split_ifs
  · cases hfault : pass.fault userId .history with
    | some error => simpa [answerOr, recordEquitySnapshot] using h
    | none =>
      -- a snapshot is written when the history could be read and the cooldown is over
      by_cases hdue : SnapshotDue (answerOr none (db.equityHistory.owned userId)) (pass.now userId)
      · rw [recordEquitySnapshot_of_due hdue]
        obtain ⟨rows, hrows, hlast⟩ := hdue
        obtain rfl := Except.ok.inj hrows
        rw [Spaced, List.map_append, List.pairwise_append]
        -- the new row is compared with the latest one, which no other row is later than
        refine ⟨h, List.pairwise_singleton _ _, fun earlier hearlier later hlater => ?_⟩
        obtain ⟨row, hrow, rfl⟩ := List.mem_map.mp hearlier
        obtain rfl : later = pass.now userId := by simpa using hlater
        obtain ⟨hnone, hle⟩ := latestSnapshot_spec (db.equityHistory.owned userId)
        cases hlatest : latestSnapshot (db.equityHistory.owned userId) with
        | none => simp [hnone hlatest] at hrow
        | some last =>
          have hrecent := hlast last hlatest
          have hrow' := hle last hlatest row hrow
          omega
      · rw [recordEquitySnapshot_of_not_due hdue]
        simpa using h
  · simpa using h

/-- A reset leaves a part of the history. -/
theorem spaced_clear {history : OwnedTable (EquityHistory ℚ) NeverSame} {userId : ℕ}
    (h : Spaced (history.owned userId)) (reset : ℕ) :
    Spaced ((history.clear reset).owned userId) := by
  have hsub : ((history.clear reset).owned userId).Sublist (history.owned userId) :=
    (List.filter_sublist.filter _).map _
  exact h.sublist (hsub.map _)

/-- The snapshots of a user are at least the cooldown apart after any run of the writers. -/
theorem spaced_run (settings : Settings) (calls : List HistoryCall) (db : Demo.Database)
    (h : ∀ userId, Spaced (db.equityHistory.owned userId)) (userId : ℕ) :
    Spaced ((calls.foldl (historyStep settings) db).equityHistory.owned userId) := by
  refine Runs.foldl_invariant (A := fun _ => True)
    (J := fun db : Demo.Database => ∀ userId, Spaced (db.equityHistory.owned userId))
    (fun db call _ h userId => ?_) h (fun _ _ => trivial) userId
  cases call with
  | pass pass =>
    -- a pass adds to the history what it would add for this user alone
    have hpass := congrArg Belongings.equityHistory ((snapshotAllUsers_spec pass db).2.2 userId)
    have hafter : (historyStep settings db (.pass pass)).equityHistory.owned userId =
        db.equityHistory.owned userId ++
          if pass.Reaches db userId then pass.recorded userId db else [] := hpass
    rw [hafter]
    split_ifs
    · exact spaced_recorded pass userId db (h userId)
    · simpa using h userId
  | snapshot pass reached =>
    obtain ⟨db', hsnapshot, -, hothers, hbelongings⟩ := snapshotUser_spec pass reached db
    have hstep : historyStep settings db (.snapshot pass reached) = db' := by
      rw [historyStep, hsnapshot]
      rfl
    rw [hstep]
    -- a snapshot behind a trade adds to the history of its own user only
    by_cases hreached : userId = reached
    · subst hreached
      have hafter : db'.equityHistory.owned userId =
          db.equityHistory.owned userId ++ pass.recorded userId db :=
        congrArg Belongings.equityHistory hbelongings
      rw [hafter]
      exact spaced_recorded pass userId db (h userId)
    · have hsame : db'.equityHistory.owned userId = db.equityHistory.owned userId :=
        congrArg Belongings.equityHistory (belongings_eq_of_others hothers hreached)
      rw [hsame]
      exact h userId
  | reset fault reached =>
    -- a reset commits the cleared tables, or raises and commits nothing
    rcases committed_resetAccount settings fault reached db with hreset | hreset
    · rw [historyStep, hreset, equityHistory_cleared]
      exact spaced_clear (h userId) reached
    · rw [historyStep, hreset]
      exact h userId

/-- Two passes, of which the first one is too early for both users, a trade and a reset. -/
theorem spaced_visited :
    Spaced (([.pass (passAt 10 none), .pass (passAt 9000000 none),
      .snapshot (passAt 9000001 none) 1, .reset (fun _ => none) 2].foldl
        (historyStep {}) visitedDatabase).equityHistory.owned 1) := by
  refine spaced_run {} _ visitedDatabase (fun userId => ?_) 1
  by_cases hfirst : 1 = userId
  · subst hfirst
    simp [visitedDatabase, OwnedTable.owned, Spaced]
  · by_cases hsecond : 2 = userId <;>
      simp [visitedDatabase, OwnedTable.owned, Spaced, hfirst, hsecond]

end TradingSimulator.SnapshotEngine
