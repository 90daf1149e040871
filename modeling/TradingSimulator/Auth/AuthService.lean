import TradingSimulator.Auth.JwtHandler
import TradingSimulator.Library.ExpiringStore
import TradingSimulator.Models

/-!
# Authentication

`AuthService` (`app/services/auth_service.py`), the password helpers it uses
(`app/auth/password.py`), the route `POST /logout` (`app/api/v1/auth.py`) and the dependencies that
authenticate a request (`app/auth/dependencies.py`).

The libraries behind them are parameters: PyJWT, bcrypt and Python's `str.strip`. The random values
of a call (the salt, the `uuid4` of the access token and the refresh token) are among its inputs.
-/

namespace TradingSimulator

/-! ### Rows, keys and libraries -/

/-- A `users` row. -/
structure User where
  id : ℕ
  username : String
  hashedPassword : String
  balance : ℚ
  deriving DecidableEq

/-- The Redis keys: `REFRESH_PREFIX` or `BLOCKLIST_PREFIX` followed by a token or a `jti`. -/
inductive RedisKey where
  | refresh (token : String)
  | blocked (jti : String)
  deriving DecidableEq

/-- The key as the string that Redis sees. -/
def RedisKey.render : RedisKey → String
  | .refresh token => "refresh:" ++ token
  | .blocked jti => "jti:blocked:" ++ jti

/-- Different keys are different strings. -/
theorem RedisKey.render_injective : Function.Injective RedisKey.render := by
  -- the two prefixes differ in their first character
  have hapart : ∀ token jti : String, "refresh:" ++ token ≠ "jti:blocked:" ++ jti := by
    intro token jti h
    simpa using congrArg (fun s => s.toList.head?) h
  rintro (token | jti) (token' | jti') h
  · rw [(String.append_right_inj "refresh:").mp h]
  · exact absurd h (hapart token jti')
  · exact absurd h.symm (hapart token' jti)
  · rw [(String.append_right_inj "jti:blocked:").mp h]

/-- The Redis database. -/
abbrev Redis := ExpiringStore RedisKey String ℚ

/-- What `AuthService` reads and writes. -/
structure AuthState where
  users : List User
  redis : Redis

/-- The libraries of the service. -/
structure AuthLibs (Token : Type) where
  jwt : JwtLib Token
  /-- `bcrypt.hashpw` of a password with a salt. -/
  hashpw : String → String → String
  /-- `bcrypt.checkpw`, false on a malformed hash. -/
  checkpw : String → String → Bool
  /-- `str.strip`. -/
  strip : String → String

/-- The random values of a call. -/
structure Randomness where
  salt : String
  jti : String
  refreshToken : String

/-- The exceptions of the service. -/
inductive ServiceError where
  | authError (detail : String)
  | valueError (detail : String)
  deriving DecidableEq

/-- The result of issuing tokens. -/
structure TokenPair (Token : Type) where
  user : User
  accessToken : Token
  refreshToken : String
  accessJti : String

/-- Python's `int` on a decimal numeral. The signs, blanks and underscores it also accepts do not
occur in the `str` of a user id. -/
def pyInt (s : String) : Option ℕ :=
  if s ≠ "" ∧ s.toList.all Char.isDigit then some (Nat.ofDigitChars 10 s.toList 0) else none

/-- `int(str(n))` is `n`. -/
theorem pyInt_toString (n : ℕ) : pyInt (toString n) = some n := by
  have hdigits : ∀ c ∈ Nat.toDigits 10 n, c.isDigit = true :=
    fun c hc => Nat.isDigit_of_mem_toDigits (by decide) (by decide) hc
  rw [pyInt, Nat.toString_eq_repr, Nat.toList_repr, Nat.ofDigitChars_ten_toDigits, if_pos]
  exact ⟨Nat.repr_ne_empty, List.all_eq_true.mpr hdigits⟩

/-! ### Passwords -/

section Service

variable {Token : Type} (libs : AuthLibs Token) (settings : Settings)

/-- `hash_password`. -/
def hashPassword (password salt : String) : Except ServiceError String :=
  if password = "" then .error (.valueError "Password cannot be empty")
  else .ok (libs.hashpw password salt)

/-- `verify_password`. -/
def verifyPassword (plainPassword hashedPassword : String) : Bool :=
  if plainPassword = "" ∨ hashedPassword = "" then false
  else libs.checkpw plainPassword hashedPassword

/-- `is_legacy_hash`. -/
def isLegacyHash (hashedPassword : String) : Bool :=
  hashedPassword.startsWith "$argon2"

/-! ### The service -/

/-- The user with an id. -/
def userById (users : List User) (id : ℕ) : Option User := KeyedRows.lookup User.id id users

/-- The user with a name. -/
def userByName (users : List User) (username : String) : Option User :=
  KeyedRows.lookup User.username username users

/-- `_issue_tokens`. -/
def issueTokens (state : AuthState) (user : User) (random : Randomness) (now : ℚ) :
    TokenPair Token × AuthState :=
  let access := createAccessToken libs.jwt settings user.id random.jti now
  ({ user
     accessToken := access.1
     refreshToken := random.refreshToken
     accessJti := access.2 },
    { state with
      redis := state.redis.setex now (.refresh random.refreshToken)
        (settings.jwtRefreshDays * 86400) (toString user.id) })

/-- `AuthService.register`. Ids are given out in order, and no user is ever deleted. -/
def register (state : AuthState) (username password : String) (random : Randomness) (now : ℚ) :
    Except ServiceError (TokenPair Token) × AuthState :=
  let username := libs.strip username
  if username = "" then (.error (.authError "Username is required"), state)
  else if password.length < settings.passwordMinLength then
    (.error (.authError
      s!"Password must be at least {settings.passwordMinLength} characters"), state)
  else if (userByName state.users username).isSome then
    (.error (.authError "Username already exists"), state)
  else
    match hashPassword libs password random.salt with
    | .error error => (.error error, state)
    | .ok hashedPassword =>
      -- committed before the tokens are issued
      let user : User :=
        { id := state.users.length + 1, username, hashedPassword,
          balance := settings.defaultUserBalance }
      let issued := issueTokens libs settings { state with users := state.users ++ [user] } user
        random now
      (.ok issued.1, issued.2)

/-- `AuthService.login`. -/
def login (state : AuthState) (username password : String) (random : Randomness) (now : ℚ) :
    Except ServiceError (TokenPair Token) × AuthState :=
  match userByName state.users (libs.strip username) with
  | none => (.error (.authError "Invalid credentials"), state)
  | some user =>
    if verifyPassword libs password user.hashedPassword = false then
      (.error (.authError "Invalid credentials"), state)
    else if isLegacyHash user.hashedPassword then
      -- the password is hashed again with the current scheme
      match hashPassword libs password random.salt with
      | .error error => (.error error, state)
      | .ok hashedPassword =>
        let user := { user with hashedPassword }
        let issued := issueTokens libs settings
          { state with users := KeyedRows.put User.id user state.users } user random now
        (.ok issued.1, issued.2)
    else
      let issued := issueTokens libs settings state user random now
      (.ok issued.1, issued.2)

/-- `AuthService.refresh`. -/
def refresh (state : AuthState) (refreshToken : String) (random : Randomness) (now : ℚ) :
    Except ServiceError (TokenPair Token) × AuthState :=
  if refreshToken = "" then (.error (.authError "Refresh token required"), state)
  else
    -- the record is removed whether the refresh succeeds or not, once it was found
    let rotated := { state with redis := state.redis.delete (.refresh refreshToken) }
    match state.redis.get now (.refresh refreshToken) with
    | none | some "" => (.error (.authError "Invalid or expired refresh token"), state)
    | some userIdStr =>
      match pyInt userIdStr with
      | none => (.error (.authError "Corrupted refresh token record"), rotated)
      | some userId =>
        match userById state.users userId with
        | none => (.error (.authError "User no longer exists"), rotated)
        | some user =>
          let issued := issueTokens libs settings rotated user random now
          (.ok issued.1, issued.2)

/-- The Redis writes of `AuthService.logout`. An empty token or `jti` is falsy. -/
def logout (redis : Redis) (refreshToken accessJti : Option String) (now : ℚ) : Redis :=
  let redis :=
    match refreshToken with
    | none | some "" => redis
    | some token => redis.delete (.refresh token)
  match accessJti with
  | none | some "" => redis
  | some jti => redis.setex now (.blocked jti) (settings.jwtAccessTtlMinutes * 60) "1"

/-- The `jti` that `POST /logout` passes on: the one of the bearer token, when it decodes. -/
def logoutJti (authorization : Option Token) (now : ℚ) : Option String :=
  match authorization with
  | none => none
  | some token =>
    (decodeToken libs.jwt settings now token (some tokenTypeAccess)).map Claims.jti

/-! ### The dependencies -/

/-- `_decode_or_401`. -/
def decodeOr401 (credentials : Option Token) (now : ℚ) : Except HttpError (ℕ × Claims) :=
  match credentials with
  | none => .error ⟨401, "Not authenticated"⟩
  | some token =>
    if libs.jwt.isEmpty token then .error ⟨401, "Not authenticated"⟩
    else
      match decodeToken libs.jwt settings now token (some tokenTypeAccess) with
      | none => .error ⟨401, "Invalid or expired token"⟩
      | some payload =>
        match pyInt payload.sub with
        | none => .error ⟨401, "Invalid token subject"⟩
        | some userId => .ok (userId, payload)

/-- `get_current_user`. -/
def getCurrentUser (users : List User) (credentials : Option Token) (now : ℚ) :
    Except HttpError User :=
  match decodeOr401 libs settings credentials now with
  | .error error => .error error
  | .ok (userId, _) =>
    match userById users userId with
    | none => .error ⟨401, "User no longer exists"⟩
    | some user => .ok user

/-- `get_current_user_async`. -/
def getCurrentUserAsync (users : List User) (credentials : Option Token) (now : ℚ) :
    Except HttpError User :=
  match decodeOr401 libs settings credentials now with
  | .error error => .error error
  | .ok (userId, _) =>
    match userById users userId with
    | none => .error ⟨401, "User no longer exists"⟩
    | some user => .ok user

/-- The two dependencies accept the same requests. -/
theorem getCurrentUserAsync_eq (users : List User) (credentials : Option Token) (now : ℚ) :
    getCurrentUserAsync libs settings users credentials now =
      getCurrentUser libs settings users credentials now := rfl

/-- A request with an access token of an existing user is accepted until the token expires, and
nothing else is looked at. -/
theorem getCurrentUser_encode_access {users : List User} {claims : Claims} {userId : ℕ}
    {user : User} {now : ℚ} (haud : claims.aud = settings.jwtAudience)
    (htype : claims.type = tokenTypeAccess) (hissued : (claims.iat : ℚ) ≤ now)
    (hsub : claims.sub = toString userId) (huser : userById users userId = some user) :
    getCurrentUser libs settings users (some (libs.jwt.encode claims)) now =
      if now < claims.exp then .ok user else .error ⟨401, "Invalid or expired token"⟩ := by
  rw [getCurrentUser, decodeOr401]
  simp only [libs.jwt.isEmpty_encode, Bool.false_eq_true, ↓reduceIte,
    decodeToken_encode_access libs.jwt settings haud htype hissued]
  by_cases hlive : now < claims.exp
  · simp only [hlive, ↓reduceIte, hsub, pyInt_toString, huser]
  · simp only [hlive, ↓reduceIte]

end Service

end TradingSimulator
