import Mathlib.Algebra.Order.Floor.Ring
import Mathlib.Data.Rat.Floor
import TradingSimulator.Config

/-!
# Access tokens

`app/auth/jwt_handler.py`. Encoding, signing and the checks of `jwt.decode` belong to PyJWT and
are the parameter `JwtLib`; `create_access_token`, `create_ws_token` and `decode_token` are built
on it. Times are seconds since the epoch.

`decodeToken_encode_access` says when a token with the claims of an access token is decoded: from
the second it was issued in until its expiry, and depending on nothing but its age.
-/

namespace TradingSimulator

/-- The claims of a token. -/
structure Claims where
  sub : String
  iat : ℤ
  exp : ℤ
  jti : String
  aud : String
  type : String
  deriving DecidableEq

/-- `TOKEN_TYPE_ACCESS`. -/
def tokenTypeAccess : String := "access"

/-- `TOKEN_TYPE_WS`. -/
def tokenTypeWs : String := "ws"

/-- PyJWT with the secret key and the algorithm of the settings. -/
structure JwtLib (Token : Type) where
  encode : Claims → Token
  /-- `jwt.decode` for an audience, at a time. -/
  decode : String → ℚ → Token → Option Claims
  /-- The empty string, which is falsy. -/
  isEmpty : Token → Bool
  /-- The checks PyJWT makes on the claims of a token that carries its signature. -/
  decode_encode : ∀ audience now claims, decode audience now (encode claims) =
    if claims.aud = audience ∧ (claims.iat : ℚ) ≤ now ∧ now < claims.exp then some claims else none
  isEmpty_encode : ∀ claims, isEmpty (encode claims) = false

variable {Token : Type}

/-- The claims of `create_access_token` at the time `now`. -/
def accessClaims (settings : Settings) (userId : ℕ) (jti : String) (now : ℚ) : Claims where
  sub := toString userId
  iat := ⌊now⌋
  exp := ⌊now + settings.jwtAccessTtlMinutes * 60⌋
  jti := jti
  aud := settings.jwtAudience
  type := tokenTypeAccess

/-- `create_access_token`: the token and its `jti`, which `uuid4` generates. -/
def createAccessToken (lib : JwtLib Token) (settings : Settings) (userId : ℕ) (jti : String)
    (now : ℚ) : Token × String :=
  (lib.encode (accessClaims settings userId jti now), jti)

/-- `create_ws_token`. -/
def createWsToken (lib : JwtLib Token) (settings : Settings) (userId : ℕ) (jti : String)
    (now : ℚ) : Token :=
  lib.encode
    { sub := toString userId
      iat := ⌊now⌋
      exp := ⌊now + settings.jwtWsTtlSeconds⌋
      jti := jti
      aud := settings.jwtAudience
      type := tokenTypeWs }

/-- `decode_token`. -/
def decodeToken (lib : JwtLib Token) (settings : Settings) (now : ℚ) (token : Token)
    (expectedType : Option String) : Option Claims :=
  if lib.isEmpty token then none
  else
    match lib.decode settings.jwtAudience now token with
    | none => none
    | some payload =>
      match expectedType with
      | some expected => if payload.type ≠ expected then none else some payload
      | none => some payload

/-- `verify_token`, which asks for no type. -/
def verifyToken (lib : JwtLib Token) (settings : Settings) (now : ℚ) (token : Token) :
    Option Claims :=
  decodeToken lib settings now token none

/-- A token that carries the claims of an access token is decoded from its issue until its
expiry. -/
theorem decodeToken_encode_access (lib : JwtLib Token) (settings : Settings) {claims : Claims}
    (haud : claims.aud = settings.jwtAudience) (htype : claims.type = tokenTypeAccess) {now : ℚ}
    (hissued : (claims.iat : ℚ) ≤ now) :
    decodeToken lib settings now (lib.encode claims) (some tokenTypeAccess) =
      if now < claims.exp then some claims else none := by
  rw [decodeToken, lib.isEmpty_encode, lib.decode_encode]
  by_cases hlive : now < claims.exp
  · simp [haud, hissued, hlive, htype]
  · simp [hlive]

/-- A WebSocket token is never accepted as an access token. -/
theorem decodeToken_createWsToken (lib : JwtLib Token) (settings : Settings) (userId : ℕ)
    (jti : String) (issued now : ℚ) :
    decodeToken lib settings now (createWsToken lib settings userId jti issued)
      (some tokenTypeAccess) = none := by
  rw [decodeToken, createWsToken, lib.isEmpty_encode, lib.decode_encode]
  split_ifs <;> simp_all [tokenTypeWs, tokenTypeAccess]

end TradingSimulator
