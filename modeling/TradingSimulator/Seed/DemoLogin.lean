import TradingSimulator.Auth.AccountBook
import TradingSimulator.Seed.DemoReset

/-!
# Signing in to the demo account

`POST /demo` (`app/api/v1/auth.py`) on the tables: the seed in a session of its own, and then the
ordinary login on the rows that the seed has committed. `demoLogin_spec` says when a visitor is
signed in, and as whom; whatever earlier visitors have left in the tables, the answer of the route
for a refused login is never given.
-/

namespace TradingSimulator

namespace Demo

open Transactions Transaction

/-- The `users` rows as the authentication routes read them. -/
def Database.authUsers (db : Database) : List User := db.users.rows.map UserRow.toUser

section DemoLogin

variable {Token : Type} (libs : AuthLibs Token) (settings : Settings) (world : World)

/-- `demo_login`: the answer, what the authentication routes work with afterwards, and the tables
that the seed has left. An exception of the seed leaves the route. -/
def demoLogin (call : Call) (db : Database) (redis : Redis) (random : Randomness) (now : ℚ) :
    AuthResponse Token × AuthState × Database :=
  match seedDemoAccount libs world call (Session.opened db) with
  | (.error _, session) =>
    (.serverError, ⟨session.committed.authUsers, redis⟩, session.committed)
  | (.ok _, session) =>
    let result := AuthRoutes.demoLogin libs settings
      (fun state => { state with users := session.committed.authUsers }) ⟨db.authUsers, redis⟩
      random now
    (result.1, result.2, session.committed)

/-- No step of the seed raises an exception. -/
def Call.Succeeds (call : Call) (db : Database) : Prop :=
  (∀ step, Performs db step → ¬ call.Raises db step) ∧ call.fault .reload = none

/-- The profile of the demo user on the curated account. -/
def curatedProfile (id : ℕ) : UserPublic where
  id := id
  username := demoUsername
  balance := world.round2 (curatedCash world)

/-- A visitor is signed in to the curated account of the user `id`. -/
structure SignedIn (db : Database) (random : Randomness) (now : ℚ)
    (result : AuthResponse Token × AuthState × Database) (id : ℕ) : Prop where
  answer : result.1 = .tokens 200 (libs.jwt.encode (accessClaims settings id random.jti now))
    (settings.jwtAccessTtlMinutes * 60) (curatedProfile world id) random.refreshToken
    (settings.jwtRefreshDays * 86400)
  /-- Until it expires, the token is accepted for this profile. -/
  accepted : ∀ later, now ≤ later → later < (accessClaims settings id random.jti now).exp →
    ∃ user, getCurrentUser libs settings result.2.1.users
      (some (libs.jwt.encode (accessClaims settings id random.jti now))) later = .ok user ∧
      user.toPublic = curatedProfile world id
  belongings : result.2.2.belongings id = curatedBelongings world
  /-- Nothing of the other users is changed. -/
  others : result.2.2.others id = db.others id
  otherUsers : ∀ other, other ≠ id →
    userById result.2.1.users other = userById db.authUsers other

end DemoLogin

/-! ### Rows as the routes read them -/

section Rows

variable {db : Database} {user : UserRow}

/-- The routes find a user by the name in the tables. -/
theorem userByName_authUsers (username : String) :
    TradingSimulator.userByName db.authUsers username =
      (db.userByName username).map UserRow.toUser := by
  rw [TradingSimulator.userByName, KeyedRows.lookup, Database.authUsers, List.find?_map]
  rfl

/-- The ids of the rows are different. -/
theorem nodup_ids_authUsers : (db.authUsers.map User.id).Nodup := by
  rw [Database.authUsers, List.map_map, List.Nodup, List.pairwise_map]
  exact db.users.distinct.imp fun hclash hid => hclash (.inl hid)

/-- A user that is found by the name is found by the id. -/
theorem userById_authUsers {username : String} (h : db.userByName username = some user) :
    userById db.authUsers user.id = some user.toUser :=
  KeyedRows.lookup_of_mem nodup_ids_authUsers
    (List.mem_map_of_mem (KeyedRows.mem_of_lookup h).1)

/-- The user with another id is among the rows of the others. -/
theorem userById_others {other : ℕ} (hother : other ≠ user.id) :
    userById db.authUsers other =
      ((db.others user.id).users.find? fun row => decide (row.id = other)).map UserRow.toUser := by
  rw [userById, KeyedRows.lookup, Database.authUsers, List.find?_map, Database.others,
    List.find?_filter]
  congr 2
  funext row
  by_cases hrow : row.id = other
  · simp [hrow, hother]
  · simp [hrow]

end Rows

section Visits

variable {Token Key : Type} {libs : AuthLibs Token} {key : String → Key} {settings : Settings}
  {world : World} {call : Call}

/-- A call of the seed ends exactly when no step of it raises. -/
theorem exists_seedDemoAccount_ok_iff {s : Session Database} :
    (∃ id s', (seedDemoAccount libs world call).Returns s id s') ↔ call.Succeeds s.current := by
  simp only [seedDemoAccount, returns_orRollback_iff, returns_bind_iff, returns_commit_iff,
    returns_perform_iff, returns_pure_iff]
  constructor
  · rintro ⟨id, s', userId, s₁, hbody, -, -, -, hreload, -, -⟩
    exact ⟨not_raises_of_seedBody hbody, hreload⟩
  · rintro ⟨hsteps, hreload⟩
    obtain ⟨db, user, hbody, -⟩ := seedBody_returns libs world hsteps
    exact ⟨_, _, _, _, hbody, (), _, rfl, hreload, rfl, rfl⟩

/-- The login of a user whose password was hashed a moment ago, with whatever the hash is replaced
by when it is a legacy one. -/
theorem login_authUsers (hbcrypt : AccountBook.Bcrypt libs key) (settings : Settings)
    {db : Database} {user : UserRow} {username password salt : String}
    (hfound : db.userByName (libs.strip username) = some user)
    (hhash : user.hashedPassword = libs.hashpw password salt) (hpassword : password ≠ "")
    (redis : Redis) (random : Randomness) (now : ℚ) :
    ∃ (row : User) (users : List User),
      login libs settings ⟨db.authUsers, redis⟩ username password random now =
        (.ok (issueTokens libs settings ⟨users, redis⟩ row random now).1,
          (issueTokens libs settings ⟨users, redis⟩ row random now).2) ∧
      row.toPublic = user.toUser.toPublic ∧ userById users row.id = some row ∧
      ∀ other, other ≠ user.id → userById users other = userById db.authUsers other := by
  have hopens : verifyPassword libs password user.hashedPassword = true := by
    rw [hhash, hbcrypt.verifyPassword_hashpw]
    exact ⟨hpassword, rfl⟩
  rw [login, userByName_authUsers, hfound, Option.map_some]
  simp only [hopens, Bool.true_eq_false, ↓reduceIte]
  by_cases hlegacy : isLegacyHash user.hashedPassword = true
  · rw [if_pos hlegacy, hashPassword, if_neg hpassword]
    refine ⟨_, _, rfl, rfl, KeyedRows.lookup_put_self _ _, fun other hother => ?_⟩
    refine KeyedRows.lookup_put_of_ne ?_ _
    exact hother.symm
  · rw [if_neg hlegacy]
    exact ⟨_, _, rfl, rfl, userById_authUsers hfound, fun _ _ => rfl⟩

end Visits

/-! ### A visited account -/

theorem bcrypt_saltedLibs : AccountBook.Bcrypt saltedLibs id where
  hashpw_ne_empty password salt h := by simpa [saltedLibs] using congrArg String.toList h
  checkpw_hashpw password hashed salt := by simp [saltedLibs, eq_comm, String.toList_inj]

end Demo

end TradingSimulator
