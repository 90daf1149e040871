import TradingSimulator.Auth.AuthService
import TradingSimulator.Seed.Demo

/-!
# The authentication routes

The routes of `app/api/v1/auth.py` over `AuthService`, with the status, the detail and the cookie of
every answer. A request is handled before the next one starts. `POST /demo` starts with the seed of
the demo account and is not among the requests of `handle`; the rate limits in front of the routes
are in `Core/RateLimit.lean`.
-/

namespace TradingSimulator

/-- A request to the router. The bearer token is `none` without the header. -/
inductive AuthRequest (Token : Type) where
  | register (username password : String)
  | login (username password : String)
  | refresh (cookie : Option String)
  | logout (cookie : Option String) (authorization : Option Token)
  | wsToken (credentials : Option Token)
  | me (credentials : Option Token)
  | changePassword (credentials : Option Token) (currentPassword newPassword : String)

/-- `UserPublic`. -/
structure UserPublic where
  id : ℕ
  username : String
  balance : ℚ
  deriving DecidableEq

/-- `UserPublic.model_validate`. -/
def User.toPublic (user : User) : UserPublic where
  id := user.id
  username := user.username
  balance := user.balance

/-- An answer of the router. -/
inductive AuthResponse (Token : Type) where
  /-- `TokenResponse`, with the refresh cookie that is set and the seconds it is kept. -/
  | tokens (status : ℕ) (accessToken : Token) (expiresIn : ℕ) (user : UserPublic)
      (cookie : String) (maxAge : ℕ)
  /-- An `HTTPException`. -/
  | refused (error : HttpError)
  /-- An `HTTPException` after `_clear_refresh_cookie`. -/
  | refusedClearing (error : HttpError)
  /-- A body whose fields are too short. -/
  | unprocessable (fields : List String)
  /-- An exception that no handler of the route catches. -/
  | serverError
  /-- The empty answer of `logout`, after `_clear_refresh_cookie`. -/
  | loggedOut
  | wsToken (token : Token) (expiresIn : ℕ)
  | me (user : UserPublic)
  | updated (message : String)
  deriving DecidableEq

namespace AuthRoutes

variable {Token : Type} (libs : AuthLibs Token) (settings : Settings)

/-- The fields of `ChangePasswordRequest` that are shorter than their `min_length` of one. -/
def changePasswordErrors (currentPassword newPassword : String) : List String :=
  (if currentPassword = "" then ["current_password"] else []) ++
    (if newPassword = "" then ["new_password"] else [])

/-- `_set_refresh_cookie` and `_token_response`, on the result of a service call. An `AuthError`
becomes an answer, every other exception leaves the route. -/
def tokenResponse (status : ℕ) (refuse : String → AuthResponse Token)
    (result : Except ServiceError (TokenPair Token)) : AuthResponse Token :=
  match result with
  | .error (.authError detail) => refuse detail
  | .error (.valueError _) => .serverError
  | .ok pair =>
    .tokens status pair.accessToken (settings.jwtAccessTtlMinutes * 60) pair.user.toPublic
      pair.refreshToken (settings.jwtRefreshDays * 86400)

/-- `change_password`, with the user that the dependency has found. -/
def changePassword (state : AuthState) (user : User) (currentPassword newPassword : String)
    (random : Randomness) : AuthResponse Token × AuthState :=
  match userById state.users user.id with
  | none => (.refused ⟨404, "User not found"⟩, state)
  | some row =>
    if verifyPassword libs currentPassword row.hashedPassword = false then
      (.refused ⟨400, "Current password is incorrect"⟩, state)
    else if newPassword.length < settings.passwordMinLength then
      (.refused ⟨400,
        s!"New password must be at least {settings.passwordMinLength} characters"⟩, state)
    else if verifyPassword libs newPassword row.hashedPassword then
      (.refused ⟨400, "New password must differ from the current one"⟩, state)
    else
      match hashPassword libs newPassword random.salt with
      | .error _ => (.serverError, state)
      | .ok hashedPassword =>
        (.updated "Password updated.",
          { state with
            users := KeyedRows.put User.id { row with hashedPassword } state.users })

/-- A request with the random values and the time of its handling. -/
structure Handled (Token : Type) where
  request : AuthRequest Token
  random : Randomness
  now : ℚ

/-- The router. -/
def handle (state : AuthState) (call : Handled Token) : AuthResponse Token × AuthState :=
  match call.request with
  | .register username password =>
    let result := register libs settings state username password call.random call.now
    (tokenResponse settings 201 (fun detail => .refused ⟨400, detail⟩) result.1, result.2)
  | .login username password =>
    let result := login libs settings state username password call.random call.now
    (tokenResponse settings 200 (fun detail => .refused ⟨401, detail⟩) result.1, result.2)
  | .refresh none | .refresh (some "") => (.refused ⟨401, "Refresh token missing"⟩, state)
  | .refresh (some refreshToken) =>
    let result := refresh libs settings state refreshToken call.random call.now
    (tokenResponse settings 200 (fun detail => .refusedClearing ⟨401, detail⟩) result.1, result.2)
  | .logout cookie authorization =>
    (.loggedOut,
      { state with
        redis := logout settings state.redis cookie
          (logoutJti libs settings authorization call.now) call.now })
  | .wsToken credentials =>
    match getCurrentUserAsync libs settings state.users credentials call.now with
    | .error error => (.refused error, state)
    | .ok user =>
      (.wsToken (createWsToken libs.jwt settings user.id call.random.jti call.now)
        settings.jwtWsTtlSeconds, state)
  | .me credentials =>
    match getCurrentUserAsync libs settings state.users credentials call.now with
    | .error error => (.refused error, state)
    | .ok user => (.me user.toPublic, state)
  | .changePassword credentials currentPassword newPassword =>
    -- the dependencies come before the checks of the body
    match getCurrentUserAsync libs settings state.users credentials call.now with
    | .error error => (.refused error, state)
    | .ok user =>
      match changePasswordErrors currentPassword newPassword with
      | [] => changePassword libs settings state user currentPassword newPassword call.random
      | fields => (.unprocessable fields, state)

/-- `demo_login`, where `seed` is what `seed_demo_account` does to the state. -/
def demoLogin (seed : AuthState → AuthState) (state : AuthState) (random : Randomness) (now : ℚ) :
    AuthResponse Token × AuthState :=
  let result := login libs settings (seed state) Demo.demoUsername Demo.demoPassword random now
  (tokenResponse settings 200 (fun _ => .refused ⟨503, "Demo is temporarily unavailable"⟩) result.1,
    result.2)

end AuthRoutes

end TradingSimulator
