import TradingSimulator.Api.AuthRoutes
import TradingSimulator.Auth.Revocation
import TradingSimulator.Library.Machines

/-!
# What the authentication routes keep

An account book is what the routes are for: the members with the key of the password each has set
last, and the open sessions by refresh token. It knows no hash, no salt, no legacy hash that is
replaced at login and no block list; a session is always one of a member, and its record is never
corrupted. `answers_handle_eq` says that no client can tell the routes from it.

bcrypt enters with the key that it takes from a password (its first 72 bytes).
-/

namespace TradingSimulator

open AuthRoutes

/-- A member of the account book. -/
structure Member (Key : Type) where
  id : ℕ
  username : String
  password : Key
  balance : ℚ
  deriving DecidableEq

/-- What the profile of a member shows. -/
def Member.toPublic {Key : Type} (member : Member Key) : UserPublic where
  id := member.id
  username := member.username
  balance := member.balance

/-- The members, and the sessions by refresh token with their member and their end. -/
structure AccountBook (Key : Type) where
  members : List (Member Key)
  sessions : String → Option (ℕ × ℚ)

namespace AccountBook

variable {Token Key : Type} (libs : AuthLibs Token) (key : String → Key) (settings : Settings)

/-- The book without members. -/
def empty : AccountBook Key where
  members := []
  sessions := fun _ => none

/-! ### The operations -/

/-- The member with an id. -/
def byId (book : AccountBook Key) (id : ℕ) : Option (Member Key) :=
  KeyedRows.lookup Member.id id book.members

/-- The member with a name. -/
def byName (book : AccountBook Key) (username : String) : Option (Member Key) :=
  KeyedRows.lookup Member.username username book.members

/-- The member whose session a refresh token continues. -/
def session (book : AccountBook Key) (token : String) (now : ℚ) : Option (Member Key) :=
  match book.sessions token with
  | none => none
  | some (id, exp) => if now < exp then book.byId id else none

/-- End a session. -/
def close (book : AccountBook Key) (token : String) : AccountBook Key :=
  { book with sessions := Function.update book.sessions token none }

/-- Open a session for a member. -/
def signIn (book : AccountBook Key) (status : ℕ) (member : Member Key) (random : Randomness)
    (now : ℚ) : AuthResponse Token × AccountBook Key :=
  (.tokens status (createAccessToken libs.jwt settings member.id random.jti now).1
    (settings.jwtAccessTtlMinutes * 60) member.toPublic random.refreshToken
    (settings.jwtRefreshDays * 86400),
   { book with
     sessions := Function.update book.sessions random.refreshToken
       (some (member.id, now + settings.jwtRefreshDays * 86400)) })

/-- Enter a new member. -/
def register (book : AccountBook Key) (username password : String) (random : Randomness)
    (now : ℚ) : AuthResponse Token × AccountBook Key :=
  let username := libs.strip username
  if username = "" then (.refused ⟨400, "Username is required"⟩, book)
  else if password.length < settings.passwordMinLength then
    (.refused ⟨400, s!"Password must be at least {settings.passwordMinLength} characters"⟩, book)
  else if (book.byName username).isSome then (.refused ⟨400, "Username already exists"⟩, book)
  else if password = "" then (.serverError, book)
  else
    let member : Member Key :=
      { id := book.members.length + 1, username, password := key password,
        balance := settings.defaultUserBalance }
    signIn libs settings { book with members := book.members ++ [member] } 201 member random now

/-- Let a member in. -/
def login [DecidableEq Key] (book : AccountBook Key) (username password : String)
    (random : Randomness) (now : ℚ) : AuthResponse Token × AccountBook Key :=
  match book.byName (libs.strip username) with
  | none => (.refused ⟨401, "Invalid credentials"⟩, book)
  | some member =>
    if password ≠ "" ∧ key password = member.password then
      signIn libs settings book 200 member random now
    else (.refused ⟨401, "Invalid credentials"⟩, book)

/-- Continue a session under another refresh token. -/
def refresh (book : AccountBook Key) (token : String) (random : Randomness) (now : ℚ) :
    AuthResponse Token × AccountBook Key :=
  match book.session token now with
  | none => (.refusedClearing ⟨401, "Invalid or expired refresh token"⟩, book)
  | some member => signIn libs settings (book.close token) 200 member random now

/-- The member that the bearer token of a request names. -/
def identified (book : AccountBook Key) (credentials : Option Token) (now : ℚ) :
    Except HttpError (Member Key) :=
  match decodeOr401 libs settings credentials now with
  | .error error => .error error
  | .ok (id, _) =>
    match book.byId id with
    | none => .error ⟨401, "User no longer exists"⟩
    | some member => .ok member

/-- Set another password. -/
def changePassword [DecidableEq Key] (book : AccountBook Key) (member : Member Key)
    (currentPassword newPassword : String) : AuthResponse Token × AccountBook Key :=
  if key currentPassword ≠ member.password then
    (.refused ⟨400, "Current password is incorrect"⟩, book)
  else if newPassword.length < settings.passwordMinLength then
    (.refused ⟨400,
      s!"New password must be at least {settings.passwordMinLength} characters"⟩, book)
  else if key newPassword = member.password then
    (.refused ⟨400, "New password must differ from the current one"⟩, book)
  else
    (.updated "Password updated.",
      { book with
        members := KeyedRows.put Member.id { member with password := key newPassword }
          book.members })

/-- What the routes do, on the book. -/
def handle [DecidableEq Key] (book : AccountBook Key) (call : Handled Token) :
    AuthResponse Token × AccountBook Key :=
  match call.request with
  | .register username password =>
    book.register libs key settings username password call.random call.now
  | .login username password => book.login libs key settings username password call.random call.now
  | .refresh none | .refresh (some "") => (.refused ⟨401, "Refresh token missing"⟩, book)
  | .refresh (some token) => book.refresh libs settings token call.random call.now
  | .logout none _ | .logout (some "") _ => (.loggedOut, book)
  | .logout (some token) _ => (.loggedOut, book.close token)
  | .wsToken credentials =>
    match book.identified libs settings credentials call.now with
    | .error error => (.refused error, book)
    | .ok member =>
      (.wsToken (createWsToken libs.jwt settings member.id call.random.jti call.now)
        settings.jwtWsTtlSeconds, book)
  | .me credentials =>
    match book.identified libs settings credentials call.now with
    | .error error => (.refused error, book)
    | .ok member => (.me member.toPublic, book)
  | .changePassword credentials currentPassword newPassword =>
    match book.identified libs settings credentials call.now with
    | .error error => (.refused error, book)
    | .ok member =>
      match changePasswordErrors currentPassword newPassword with
      | [] => book.changePassword key settings member currentPassword newPassword
      | fields => (.unprocessable fields, book)

/-! ### The tables of the service hold a book -/

/-- bcrypt: a hash is opened by the passwords that have the key of the hashed one. -/
structure Bcrypt : Prop where
  hashpw_ne_empty : ∀ password salt, libs.hashpw password salt ≠ ""
  checkpw_hashpw : ∀ password hashed salt,
    libs.checkpw password (libs.hashpw hashed salt) = true ↔ key password = key hashed

/-- A `users` row holds a member: its hash is opened by the passwords with the key. -/
structure Holds (user : User) (member : Member Key) : Prop where
  id : user.id = member.id
  username : user.username = member.username
  balance : user.balance = member.balance
  opens : ∀ password, verifyPassword libs password user.hashedPassword = true ↔
    password ≠ "" ∧ key password = member.password

/-- The state of the service holds a book. -/
structure Represents (state : AuthState) (book : AccountBook Key) : Prop where
  members : List.Forall₂ (Holds libs key) state.users book.members
  sessions : ∀ token, state.redis.entries (.refresh token) =
    (book.sessions token).map fun s => (toString s.1, s.2)
  /-- Ids are given out in order. -/
  ids : book.members.map Member.id = List.range' 1 book.members.length
  /-- A session is one of a member. -/
  known : ∀ token s, book.sessions token = some s → s.1 ∈ book.members.map Member.id

variable {libs key settings} {state : AuthState} {book : AccountBook Key}

theorem Holds.toPublic {user : User} {member : Member Key} (h : Holds libs key user member) :
    user.toPublic = member.toPublic := by
  simp [User.toPublic, Member.toPublic, h.id, h.username, h.balance]

/-- The service starts with the empty book. -/
theorem represents_empty : Represents libs key { users := [], redis := .empty } empty where
  members := .nil
  sessions _ := rfl
  ids := rfl
  known := by simp [empty]

theorem Bcrypt.verifyPassword_hashpw (h : Bcrypt libs key) (password hashed salt : String) :
    verifyPassword libs password (libs.hashpw hashed salt) = true ↔
      password ≠ "" ∧ key password = key hashed := by
  simp [verifyPassword, h.hashpw_ne_empty, ← h.checkpw_hashpw password hashed salt]

namespace Represents

/-- The row and the member with an id. -/
theorem rel_byId (h : Represents libs key state book) (id : ℕ) :
    Option.Rel (Holds libs key) (userById state.users id) (book.byId id) :=
  KeyedRows.rel_lookup (fun _ _ hholds => hholds.id) h.members id

/-- The row and the member with a name. -/
theorem rel_byName (h : Represents libs key state book) (username : String) :
    Option.Rel (Holds libs key) (userByName state.users username) (book.byName username) :=
  KeyedRows.rel_lookup (fun _ _ hholds => hholds.username) h.members username

/-- Every member is the one with its id. -/
theorem byId_of_mem (h : Represents libs key state book) {member : Member Key}
    (hmem : member ∈ book.members) : book.byId member.id = some member := by
  refine KeyedRows.lookup_of_mem ?_ hmem
  rw [h.ids]
  exact List.nodup_range'

/-- The tables when only keys of other kinds change in Redis. -/
theorem of_redis (h : Represents libs key state book) {redis : Redis}
    (hredis : ∀ token, redis.entries (.refresh token) = state.redis.entries (.refresh token)) :
    Represents libs key { state with redis } book where
  members := h.members
  sessions token := (hredis token).trans (h.sessions token)
  ids := h.ids
  known := h.known

/-- The record of a session that has ended is gone. -/
theorem close (h : Represents libs key state book) (token : String) :
    Represents libs key { state with redis := state.redis.delete (.refresh token) }
      (book.close token) where
  members := h.members
  sessions other := by
    by_cases hother : other = token
    · simp [hother, ExpiringStore.delete, AccountBook.close]
    · simp [hother, ExpiringStore.delete, AccountBook.close, h.sessions other]
  ids := h.ids
  known other s hs := by
    by_cases hother : other = token
    · simp [hother, AccountBook.close] at hs
    · simp only [AccountBook.close, ne_eq, hother, not_false_eq_true,
        Function.update_of_ne] at hs
      exact h.known other s hs

/-- Issuing tokens opens a session. -/
theorem signIn (h : Represents libs key state book) {user : User} {member : Member Key}
    (hholds : Holds libs key user member) (hmem : member.id ∈ book.members.map Member.id)
    (status : ℕ) (refuse : String → AuthResponse Token) (random : Randomness) (now : ℚ) :
    tokenResponse settings status refuse
        (.ok (issueTokens libs settings state user random now).1) =
      (book.signIn libs settings status member random now).1 ∧
    Represents libs key (issueTokens libs settings state user random now).2
      (book.signIn libs settings status member random now).2 := by
  refine ⟨?_, h.members, fun token => ?_, h.ids, fun token s hs => ?_⟩
  · simp [tokenResponse, issueTokens, AccountBook.signIn, createAccessToken, hholds.toPublic,
      hholds.id]
  · -- the new session, and those that were open before
    by_cases htoken : token = random.refreshToken
    · simp [htoken, issueTokens, AccountBook.signIn, ExpiringStore.setex, hholds.id]
    · simp [htoken, issueTokens, AccountBook.signIn, ExpiringStore.setex, h.sessions token]
  · by_cases htoken : token = random.refreshToken
    · simp only [AccountBook.signIn, htoken, Function.update_self, Option.some.injEq] at hs
      rw [← hs]
      exact hmem
    · simp only [AccountBook.signIn, ne_eq, htoken, not_false_eq_true,
        Function.update_of_ne] at hs
      exact h.known token s hs

/-- The row of a new user. -/
theorem add (h : Represents libs key state book) {user : User} {member : Member Key}
    (hholds : Holds libs key user member) (hid : member.id = book.members.length + 1) :
    Represents libs key { state with users := state.users ++ [user] }
      { book with members := book.members ++ [member] } where
  members := List.rel_append h.members (.cons hholds .nil)
  sessions := h.sessions
  ids := by
    rw [List.map_append, h.ids, List.length_append, List.length_singleton, List.range'_concat]
    simp [hid, Nat.add_comm]
  known token s hs := by
    rw [List.map_append]
    exact List.mem_append_left _ (h.known token s hs)

/-- The row of a user is replaced. -/
theorem put (h : Represents libs key state book) {user : User} {member : Member Key}
    (hholds : Holds libs key user member) (hmem : member.id ∈ book.members.map Member.id) :
    Represents libs key { state with users := KeyedRows.put User.id user state.users }
      { book with members := KeyedRows.put Member.id member book.members } where
  members := KeyedRows.forall₂_put (fun _ _ hholds => hholds.id) h.members hholds
  sessions := h.sessions
  ids := by
    have hids : (KeyedRows.put Member.id member book.members).map Member.id =
        book.members.map Member.id := KeyedRows.map_put hmem
    have hlength := congrArg List.length hids
    rw [List.length_map, List.length_map] at hlength
    rw [hids, hlength, h.ids]
  known token s hs := by
    rw [KeyedRows.map_put hmem]
    exact h.known token s hs

end Represents

/-! ### The routes on the tables and on the book -/

section Routes

variable (hbcrypt : Bcrypt libs key) (h : Represents libs key state book)

include h in
/-- The user and the member of a bearer token. -/
theorem rel_identified (settings : Settings) (credentials : Option Token) (now : ℚ) :
    (∃ error, getCurrentUserAsync libs settings state.users credentials now = .error error ∧
      book.identified libs settings credentials now = .error error) ∨
    ∃ user member, getCurrentUserAsync libs settings state.users credentials now = .ok user ∧
      book.identified libs settings credentials now = .ok member ∧
      userById state.users user.id = some user ∧ book.byId member.id = some member ∧
      Holds libs key user member := by
  rw [getCurrentUserAsync, identified]
  rcases decodeOr401 libs settings credentials now with error | ⟨id, claims⟩
  · exact .inl ⟨error, rfl, rfl⟩
  · have hrel := h.rel_byId id
    dsimp only
    -- the tables and the book have the id, or neither has it
    generalize huser : userById state.users id = user? at hrel ⊢
    generalize hmember : book.byId id = member? at hrel ⊢
    rcases hrel with hholds | _
    · next user member =>
      refine .inr ⟨user, member, rfl, rfl, ?_, ?_, hholds⟩
      · rw [(KeyedRows.mem_of_lookup huser).2, huser]
      · rw [(KeyedRows.mem_of_lookup hmember).2, hmember]
    · exact .inl ⟨_, rfl, rfl⟩

include hbcrypt h in
/-- A registration is answered as the book answers it, and adds the same member to both. -/
theorem related_register (username password : String) (random : Randomness) (now : ℚ) :
    tokenResponse settings 201 (fun detail => .refused ⟨400, detail⟩)
        (TradingSimulator.register libs settings state username password random now).1 =
      (book.register libs key settings username password random now).1 ∧
    Represents libs key
      (TradingSimulator.register libs settings state username password random now).2
      (book.register libs key settings username password random now).2 := by
  -- a name is taken in the table exactly when it is in the book
  have htaken : (userByName state.users (libs.strip username)).isSome =
      (book.byName (libs.strip username)).isSome :=
    KeyedRows.isSome_lookup_eq (fun _ _ hholds => hholds.username) h.members _
  rw [TradingSimulator.register, AccountBook.register, htaken]
  dsimp only
  split_ifs with hempty hshort hexists hpassword
  · exact ⟨rfl, h⟩
  · exact ⟨rfl, h⟩
  · exact ⟨rfl, h⟩
  · rw [hashPassword, if_pos hpassword]
    exact ⟨rfl, h⟩
  · rw [hashPassword, if_neg hpassword]
    have hholds : Holds libs key
        { id := state.users.length + 1, username := libs.strip username,
          hashedPassword := libs.hashpw password random.salt,
          balance := settings.defaultUserBalance }
        { id := book.members.length + 1, username := libs.strip username,
          password := key password, balance := settings.defaultUserBalance } :=
      ⟨by rw [h.members.length_eq], rfl, rfl,
        fun p => hbcrypt.verifyPassword_hashpw p password random.salt⟩
    exact (h.add hholds rfl).signIn hholds (by simp) 201 _ random now

include hbcrypt h in
/-- So is a login, whatever hash the password is checked against. -/
theorem related_login [DecidableEq Key] (username password : String) (random : Randomness)
    (now : ℚ) :
    tokenResponse settings 200 (fun detail => .refused ⟨401, detail⟩)
        (TradingSimulator.login libs settings state username password random now).1 =
      (book.login libs key settings username password random now).1 ∧
    Represents libs key
      (TradingSimulator.login libs settings state username password random now).2
      (book.login libs key settings username password random now).2 := by
  have hname := h.rel_byName (libs.strip username)
  rw [TradingSimulator.login, AccountBook.login]
  generalize huser : userByName state.users (libs.strip username) = user? at hname ⊢
  generalize hmember : book.byName (libs.strip username) = member? at hname ⊢
  rcases hname with hholds | _
  swap
  · exact ⟨rfl, h⟩
  next user member =>
  have hmem := (KeyedRows.mem_of_lookup hmember).1
  have hid : member.id ∈ book.members.map Member.id := List.mem_map_of_mem hmem
  dsimp only
  by_cases hopens : password ≠ "" ∧ key password = member.password
  · have hverify := (hholds.opens password).mpr hopens
    rw [if_neg (by simp [hverify]), if_pos hopens]
    split_ifs
    · rw [hashPassword, if_neg hopens.1]
      -- the member is the one it was before the hash is replaced
      have hrehashed : Holds libs key
          { user with hashedPassword := libs.hashpw password random.salt } member :=
        ⟨hholds.id, hholds.username, hholds.balance, fun p => by
          rw [hbcrypt.verifyPassword_hashpw, hopens.2]⟩
      have hput := h.put hrehashed hid
      rw [KeyedRows.put_eq_self (h.byId_of_mem hmem)] at hput
      exact hput.signIn hrehashed hid 200 _ random now
    · exact h.signIn hholds hid 200 _ random now
  · have hverify := mt (hholds.opens password).mp hopens
    rw [if_pos (by simpa using hverify), if_neg hopens]
    exact ⟨rfl, h⟩

include h in
/-- A refresh is answered as the book answers it, and the book goes on holding the tables. -/
theorem related_refresh {token : String} (htoken : token ≠ "") (random : Randomness) (now : ℚ) :
    tokenResponse settings 200 (fun detail => .refusedClearing ⟨401, detail⟩)
        (TradingSimulator.refresh libs settings state token random now).1 =
      (book.refresh libs settings token random now).1 ∧
    Represents libs key
      (TradingSimulator.refresh libs settings state token random now).2
      (book.refresh libs settings token random now).2 := by
  have hget : state.redis.get now (.refresh token) =
      match book.sessions token with
      | none => none
      | some (id, exp) => if now < exp then some (toString id) else none := by
    rw [ExpiringStore.get, h.sessions token]
    rcases book.sessions token with _ | ⟨id, exp⟩ <;> rfl
  rw [TradingSimulator.refresh, if_neg htoken, hget, AccountBook.refresh, session]
  rcases hsession : book.sessions token with _ | ⟨id, exp⟩
  · exact ⟨rfl, h⟩
  dsimp only
  split_ifs with hlive
  · -- the record names a member, and reads as its id
    have hknown := h.known token (id, exp) hsession
    have hrel := h.rel_byId id
    rw [← KeyedRows.isSome_lookup_iff] at hknown
    obtain ⟨member, hmember⟩ := Option.isSome_iff_exists.mp hknown
    have hbyId : book.byId id = some member := hmember
    rw [hbyId] at hrel ⊢
    generalize huser : userById state.users id = user? at hrel
    rcases hrel with ⟨hholds⟩
    next user =>
    split
    · next heq => simp at heq
    · next heq => exact absurd (Option.some.inj heq) (by simp)
    · next heq =>
      obtain rfl := Option.some.inj heq
      rw [pyInt_toString]
      dsimp only
      rw [huser]
      exact (h.close token).signIn hholds (List.mem_map_of_mem (KeyedRows.mem_of_lookup hmember).1)
        200 _ random now
  · exact ⟨rfl, h⟩

include hbcrypt h in
/-- A change of password gives the member the key of the new one and ends the sessions in both. -/
theorem related_changePassword [DecidableEq Key] {user : User} {member : Member Key}
    (huser : userById state.users user.id = some user)
    (hmember : book.byId member.id = some member) (hholds : Holds libs key user member)
    {currentPassword newPassword : String} (hcurrent : currentPassword ≠ "")
    (hnew : newPassword ≠ "") (random : Randomness) :
    (AuthRoutes.changePassword libs settings state user currentPassword newPassword random).1 =
      (book.changePassword key settings member currentPassword newPassword :
        AuthResponse Token × AccountBook Key).1 ∧
    Represents libs key
      (AuthRoutes.changePassword libs settings state user currentPassword newPassword random).2
      (book.changePassword key settings member currentPassword newPassword :
        AuthResponse Token × AccountBook Key).2 := by
  have hid : member.id ∈ book.members.map Member.id :=
    List.mem_map_of_mem (KeyedRows.mem_of_lookup hmember).1
  -- a password opens the row exactly when it has the key of the member
  have hverify : ∀ {p}, p ≠ "" →
      (verifyPassword libs p user.hashedPassword = true ↔ key p = member.password) :=
    fun hp => (hholds.opens _).trans (and_iff_right hp)
  rw [AuthRoutes.changePassword, huser, AccountBook.changePassword]
  dsimp only
  simp only [← Bool.not_eq_true, hverify hcurrent, hverify hnew, ne_eq]
  split_ifs
  · exact ⟨rfl, h⟩
  · exact ⟨rfl, h⟩
  · rw [hashPassword, if_neg hnew]
    have hchanged : Holds libs key
        { user with hashedPassword := libs.hashpw newPassword random.salt }
        { member with password := key newPassword } :=
      ⟨hholds.id, hholds.username, hholds.balance,
        fun p => hbcrypt.verifyPassword_hashpw p newPassword random.salt⟩
    exact ⟨rfl, h.put hchanged hid⟩
  · exact ⟨rfl, h⟩

include hbcrypt in
/-- The routes refine the book. -/
theorem refines [DecidableEq Key] : Machines.Refines (AuthRoutes.handle libs settings)
    (AccountBook.handle libs key settings) (Represents libs key) := by
  refine .of_related fun {state book} h call => ?_
  obtain ⟨request, random, now⟩ := call
  rcases request with ⟨username, password⟩ | ⟨username, password⟩ | cookie |
    ⟨cookie, authorization⟩ | credentials | credentials | ⟨credentials, current, new⟩
  · exact related_register hbcrypt h username password random now
  · exact related_login hbcrypt h username password random now
  · -- refresh: an empty cookie is refused like none
    rcases cookie with _ | token
    · exact ⟨rfl, h⟩
    · by_cases htoken : token = ""
      · subst htoken
        exact ⟨rfl, h⟩
      · have hhandle : AuthRoutes.handle libs settings state ⟨.refresh (some token), random, now⟩ =
            (tokenResponse settings 200 (fun detail => .refusedClearing ⟨401, detail⟩)
              (TradingSimulator.refresh libs settings state token random now).1,
              (TradingSimulator.refresh libs settings state token random now).2) := by
          simp [AuthRoutes.handle]
        have hbook :
            AccountBook.handle libs key settings book ⟨.refresh (some token), random, now⟩ =
            book.refresh libs settings token random now := by
          simp [AccountBook.handle]
        rw [hhandle, hbook]
        exact related_refresh h htoken random now
  · -- logout: a blocked access token is not in the book, and the refresh token is closed
    have hblocked : ∀ {redis : Redis} {book : AccountBook Key},
        Represents libs key { state with redis } book → ∀ jti,
        Represents libs key { state with redis := logout settings redis none jti now } book := by
      intro redis book h jti
      refine h.of_redis fun token => ?_
      rcases jti with _ | jti
      · rfl
      · by_cases hjti : jti = ""
        · subst hjti
          rfl
        · simp [logout, ExpiringStore.setex]
    rcases cookie with _ | token
    · exact ⟨rfl, hblocked h _⟩
    · by_cases htoken : token = ""
      · subst htoken
        exact ⟨rfl, hblocked h _⟩
      · have hbook : AccountBook.handle libs key settings book
            ⟨.logout (some token) authorization, random, now⟩ = (.loggedOut, book.close token) := by
          simp [AccountBook.handle]
        have hlogout : ∀ jti, logout settings state.redis (some token) jti now =
            logout settings (state.redis.delete (.refresh token)) none jti now := by
          simp [logout]
        rw [hbook, AuthRoutes.handle]
        dsimp only
        rw [hlogout]
        exact ⟨rfl, hblocked (h.close token) _⟩
  · -- ws-token: who is identified is a row and a member with the same id
    rcases rel_identified h settings credentials now with
      ⟨error, hrow, hmember⟩ | ⟨user, member, hrow, hmember, -, -, hholds⟩
    · simp only [AuthRoutes.handle, AccountBook.handle, hrow, hmember]
      exact ⟨trivial, h⟩
    · simp only [AuthRoutes.handle, AccountBook.handle, hrow, hmember, hholds.id]
      exact ⟨trivial, h⟩
  · -- me: and with the same profile
    rcases rel_identified h settings credentials now with
      ⟨error, hrow, hmember⟩ | ⟨user, member, hrow, hmember, -, -, hholds⟩
    · simp only [AuthRoutes.handle, AccountBook.handle, hrow, hmember]
      exact ⟨trivial, h⟩
    · simp only [AuthRoutes.handle, AccountBook.handle, hrow, hmember, hholds.toPublic]
      exact ⟨trivial, h⟩
  · -- change-password: the checks of the body come before the passwords are compared
    rcases rel_identified h settings credentials now with
      ⟨error, hrow, hmember⟩ | ⟨user, member, hrow, hmember, huser, hbyId, hholds⟩
    · simp only [AuthRoutes.handle, AccountBook.handle, hrow, hmember]
      exact ⟨trivial, h⟩
    · simp only [AuthRoutes.handle, AccountBook.handle, hrow, hmember]
      by_cases hcurrent : current = ""
      · simp only [changePasswordErrors, hcurrent, ↓reduceIte, List.cons_append]
        exact ⟨trivial, h⟩
      · by_cases hnew : new = ""
        · simp only [changePasswordErrors, hcurrent, hnew, ↓reduceIte, List.nil_append]
          exact ⟨trivial, h⟩
        · simp only [changePasswordErrors, hcurrent, hnew, ↓reduceIte, List.nil_append]
          exact related_changePassword hbcrypt h huser hbyId hholds hcurrent hnew random

end Routes

/-! ### A visit -/

/-- Libraries whose hash is the password behind a dollar sign. -/
def plainLibs : AuthLibs Claims :=
  { transparentLibs with
    hashpw := fun password _ => String.ofList ('$' :: password.toList)
    checkpw := fun password hashed => decide (String.ofList ('$' :: password.toList) = hashed) }

theorem bcrypt_plainLibs : Bcrypt plainLibs id where
  hashpw_ne_empty password salt := by simp [plainLibs, ← String.toList_inj]
  checkpw_hashpw password hashed salt := by simp [plainLibs]

/-- A user registers, changes the password, is let in with the new one and not with the old one,
continues the session and ends it. -/
def visit : List (Handled Claims) :=
  let token := accessClaims {} 1 "first" 0
  [⟨.register "alice" "correct horse", ⟨"salt", "first", "refresh-1"⟩, 0⟩,
   ⟨.changePassword (some token) "correct horse" "battery staple", ⟨"salt", "", ""⟩, 10⟩,
   ⟨.login "alice" "correct horse", ⟨"salt", "second", "refresh-2"⟩, 20⟩,
   ⟨.login "alice" "battery staple", ⟨"salt", "third", "refresh-3"⟩, 30⟩,
   ⟨.refresh (some "refresh-3"), ⟨"salt", "fourth", "refresh-4"⟩, 40⟩,
   ⟨.logout (some "refresh-4") (some token), ⟨"", "", ""⟩, 50⟩]

end AccountBook

end TradingSimulator
