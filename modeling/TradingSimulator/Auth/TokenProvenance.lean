import TradingSimulator.Api.AuthRoutes
import TradingSimulator.Auth.Revocation
import TradingSimulator.Library.Machines

/-!
# Where an accepted token comes from

A client has the tokens that the routes have handed out, and bearer strings without a valid
signature. `issued_of_accepted` says that a request is authenticated as a user only with a token
that a register, a login, a refresh or the demo sign-in has handed out to this user, less than the
time to live of an access token ago. A token for the WebSocket is signed with the same key and
handed out to a client that is authenticated already; it is the check of its type that keeps it from
being accepted.
-/

namespace TradingSimulator

open AuthRoutes Machines

namespace TokenProvenance

variable {Token : Type} {libs : AuthLibs Token} {settings : Settings} {state : AuthState}

/-- A call of an authentication route. What the seed of the demo sign-in does to the tables is part
of the call. -/
inductive RouteCall (Token : Type) where
  | handled (call : Handled Token)
  | demo (seed : AuthState → AuthState) (random : Randomness) (now : ℚ)

def RouteCall.now : RouteCall Token → ℚ
  | .handled call => call.now
  | .demo _ _ now => now

/-- What a route answers, and the state that it leaves. -/
def route (libs : AuthLibs Token) (settings : Settings) (state : AuthState) :
    RouteCall Token → AuthResponse Token × AuthState
  | .handled call => handle libs settings state call
  | .demo seed random now => demoLogin libs settings seed state random now

/-- The answer hands out a token. -/
def HandsOut (token : Token) : AuthResponse Token → Prop
  | .tokens _ accessToken _ _ _ _ => accessToken = token
  | .wsToken wsToken _ => wsToken = token
  | _ => False

/-- The answer hands out an access token for a user. -/
def Issues (token : Token) (userId : ℕ) : AuthResponse Token → Prop
  | .tokens _ accessToken _ user _ _ => accessToken = token ∧ user.id = userId
  | _ => False

/-- A token that a client can send after a run: one that was handed out, or one that PyJWT accepts
for no audience at no time. -/
def Known (libs : AuthLibs Token) (settings : Settings) (state : AuthState)
    (calls : List (RouteCall Token)) (token : Token) : Prop :=
  (∃ answer ∈ answers (route libs settings) state calls, HandsOut token answer) ∨
    ∀ audience now, libs.jwt.decode audience now token = none

/-! ### What the routes hand out -/

/-- The result carries an access token for its user, made at this time. -/
def Signs (libs : AuthLibs Token) (settings : Settings) (random : Randomness) (now : ℚ)
    (result : Except ServiceError (TokenPair Token)) : Prop :=
  ∀ pair, result = .ok pair →
    pair.accessToken = libs.jwt.encode (accessClaims settings pair.user.id random.jti now)

theorem signs_error (error : ServiceError) (random : Randomness) (now : ℚ) :
    Signs libs settings random now (.error error) := by
  rintro pair hpair
  exact absurd hpair (by simp)

/-- `_issue_tokens` signs for the user that it is given. -/
theorem signs_issueTokens (state : AuthState) (user : User) (random : Randomness) (now : ℚ) :
    Signs libs settings random now (.ok (issueTokens libs settings state user random now).1) := by
  rintro pair hpair
  obtain rfl := Except.ok.inj hpair
  rfl

/-- A registration signs for the user that it adds. -/
theorem signs_register (username password : String) (random : Randomness) (now : ℚ) :
    Signs libs settings random now
      (register libs settings state username password random now).1 := by
  rw [register]
  dsimp only
  split_ifs
  · exact signs_error _ random now
  · exact signs_error _ random now
  · exact signs_error _ random now
  · split
    · exact signs_error _ random now
    · exact signs_issueTokens _ _ random now

/-- A login signs for the user that it has found. -/
theorem signs_login (username password : String) (random : Randomness) (now : ℚ) :
    Signs libs settings random now (login libs settings state username password random now).1 := by
  rw [login]
  split
  · exact signs_error _ random now
  · split_ifs
    · exact signs_error _ random now
    · split
      · exact signs_error _ random now
      · exact signs_issueTokens _ _ random now
    · exact signs_issueTokens _ _ random now

/-- A refresh signs for the user whom it reads again. -/
theorem signs_refresh (token : String) (random : Randomness) (now : ℚ) :
    Signs libs settings random now (refresh libs settings state token random now).1 := by
  rw [refresh]
  split_ifs
  · exact signs_error _ random now
  · dsimp only
    split
    · exact signs_error _ random now
    · exact signs_error _ random now
    · split
      · exact signs_error _ random now
      · split
        · exact signs_error _ random now
        · exact signs_issueTokens _ _ random now

/-- A signed result becomes an answer with an access token for the profile it shows. -/
theorem Signs.tokenResponse {random : Randomness} {now : ℚ}
    {result : Except ServiceError (TokenPair Token)} (h : Signs libs settings random now result)
    {status : ℕ} {refuse : String → AuthResponse Token}
    (hrefuse : ∀ token detail, ¬ HandsOut token (refuse detail)) {token : Token}
    (hout : HandsOut token (tokenResponse settings status refuse result)) :
    ∃ userId, Issues token userId (tokenResponse settings status refuse result) ∧
      token = libs.jwt.encode (accessClaims settings userId random.jti now) := by
  rcases result with (detail | detail) | pair
  · exact absurd hout (hrefuse token detail)
  · exact absurd hout id
  · exact ⟨pair.user.id, ⟨hout, rfl⟩, hout ▸ h pair rfl⟩

/-- A token that is handed out is an access token for the user of the answer, or a token for the
WebSocket. -/
theorem signed_of_handsOut {call : Handled Token} {token : Token}
    (hout : HandsOut token (handle libs settings state call).1) :
    (∃ userId, Issues token userId (handle libs settings state call).1 ∧
      token = libs.jwt.encode (accessClaims settings userId call.random.jti call.now)) ∨
    ∃ userId, token = createWsToken libs.jwt settings userId call.random.jti call.now := by
  obtain ⟨request, random, now⟩ := call
  rcases request with ⟨username, password⟩ | ⟨username, password⟩ | cookie |
    ⟨cookie, authorization⟩ | credentials | credentials | ⟨credentials, current, new⟩
  · exact .inl (Signs.tokenResponse (signs_register username password random now)
      (by simp [HandsOut]) hout)
  · exact .inl (Signs.tokenResponse (signs_login username password random now) (by simp [HandsOut])
      hout)
  · -- refresh: without a cookie, or with an empty one, nothing is handed out
    rcases cookie with _ | refreshToken
    · exact absurd hout id
    · by_cases hempty : refreshToken = ""
      · subst hempty
        exact absurd hout id
      · have hhandle : (handle libs settings state ⟨.refresh (some refreshToken), random, now⟩).1 =
            tokenResponse settings 200 (fun detail => .refusedClearing ⟨401, detail⟩)
              (refresh libs settings state refreshToken random now).1 := by
          simp [handle]
        rw [hhandle] at hout ⊢
        exact .inl (Signs.tokenResponse (signs_refresh refreshToken random now) (by simp [HandsOut])
          hout)
  · exact absurd hout id
  · -- ws-token: a token of the other kind
    simp only [handle] at hout ⊢
    split at hout
    · exact absurd hout id
    · next user huser => exact .inr ⟨user.id, hout.symm⟩
  · -- me answers with a profile
    simp only [handle] at hout
    split at hout <;> exact absurd hout id
  · -- change-password answers that it is done, or with an error
    simp only [handle] at hout
    split at hout
    · exact absurd hout id
    · split at hout
      · simp only [changePassword] at hout
        repeat' split at hout
        all_goals exact absurd hout id
      · exact absurd hout id

/-- The demo sign-in hands out an access token for the user of its answer. -/
theorem signed_of_demoLogin {seed : AuthState → AuthState} {random : Randomness} {now : ℚ}
    {token : Token} (hout : HandsOut token (demoLogin libs settings seed state random now).1) :
    ∃ userId, Issues token userId (demoLogin libs settings seed state random now).1 ∧
      token = libs.jwt.encode (accessClaims settings userId random.jti now) :=
  Signs.tokenResponse (signs_login _ _ random now) (by simp [HandsOut]) hout

/-- Whatever route hands a token out. -/
theorem signed_of_route {call : RouteCall Token} {token : Token}
    (hout : HandsOut token (route libs settings state call).1) :
    (∃ userId jti, Issues token userId (route libs settings state call).1 ∧
      token = libs.jwt.encode (accessClaims settings userId jti call.now)) ∨
    ∃ userId jti, token = createWsToken libs.jwt settings userId jti call.now := by
  cases call with
  | handled call =>
    rcases signed_of_handsOut hout with ⟨userId, hissues, htoken⟩ | ⟨userId, htoken⟩
    · exact .inl ⟨userId, _, hissues, htoken⟩
    · exact .inr ⟨userId, _, htoken⟩
  | demo seed random now =>
    obtain ⟨userId, hissues, htoken⟩ := signed_of_demoLogin hout
    exact .inl ⟨userId, _, hissues, htoken⟩

/-! ### What is accepted -/

/-- The token of an authenticated request decodes as an access token of the user. -/
theorem decodes_of_accepted {users : List User} {token : Token} {now : ℚ} {user : User}
    (h : getCurrentUserAsync libs settings users (some token) now = .ok user) :
    ∃ payload, decodeToken libs.jwt settings now token (some tokenTypeAccess) = some payload ∧
      pyInt payload.sub = some user.id := by
  rw [getCurrentUserAsync, decodeOr401] at h
  -- each check that fails ends in an error
  by_cases hempty : libs.jwt.isEmpty token = true
  · simp [hempty] at h
  simp only [hempty, Bool.false_eq_true, ↓reduceIte] at h
  rcases hdecode : decodeToken libs.jwt settings now token (some tokenTypeAccess) with _ | payload
  · simp [hdecode] at h
  simp only [hdecode] at h
  rcases hsub : pyInt payload.sub with _ | userId
  · simp [hsub] at h
  simp only [hsub] at h
  rcases huser : userById users userId with _ | found
  · simp [huser] at h
  simp only [huser, Except.ok.injEq] at h
  refine ⟨payload, rfl, ?_⟩
  rw [hsub, ← h, (KeyedRows.mem_of_lookup huser).2]

/-- An access token that decodes was made less than its time to live ago. -/
theorem eq_of_decodes {userId : ℕ} {jti : String} {issued now : ℚ} {payload : Claims}
    (h : decodeToken libs.jwt settings now
      (libs.jwt.encode (accessClaims settings userId jti issued)) (some tokenTypeAccess) =
        some payload) :
    payload = accessClaims settings userId jti issued ∧
      now < issued + settings.jwtAccessTtlMinutes * 60 := by
  rw [decodeToken, libs.jwt.isEmpty_encode, libs.jwt.decode_encode] at h
  by_cases hchecks : (accessClaims settings userId jti issued).aud = settings.jwtAudience ∧
      ((accessClaims settings userId jti issued).iat : ℚ) ≤ now ∧
        now < (accessClaims settings userId jti issued).exp
  · rw [if_pos hchecks] at h
    have hpayload : accessClaims settings userId jti issued = payload := by
      simpa [accessClaims, tokenTypeAccess] using h
    exact ⟨hpayload.symm, hchecks.2.2.trans_le (Int.floor_le _)⟩
  · simp [if_neg hchecks] at h

/-- An access token that is accepted is taken for its user, less than its time to live after it was
made. -/
theorem eq_of_accepted {users : List User} {userId : ℕ} {jti : String} {issued now : ℚ}
    {user : User}
    (h : getCurrentUserAsync libs settings users
      (some (libs.jwt.encode (accessClaims settings userId jti issued))) now = .ok user) :
    user.id = userId ∧ now < issued + settings.jwtAccessTtlMinutes * 60 := by
  obtain ⟨payload, hdecode, hsub⟩ := decodes_of_accepted h
  obtain ⟨rfl, hlive⟩ := eq_of_decodes hdecode
  rw [accessClaims, pyInt_toString] at hsub
  exact ⟨(Option.some.inj hsub).symm, hlive⟩

/-- A token for the WebSocket is not accepted. -/
theorem not_accepted_createWsToken {users : List User} {userId : ℕ} {jti : String} {issued now : ℚ}
    {user : User} : getCurrentUserAsync libs settings users
      (some (createWsToken libs.jwt settings userId jti issued)) now ≠ .ok user := by
  intro h
  obtain ⟨payload, hdecode, -⟩ := decodes_of_accepted h
  rw [decodeToken_createWsToken] at hdecode
  exact absurd hdecode (by simp)

/-- A request that is authenticated as a user carries a token that was handed out to this user
before, less than the time to live of an access token ago. -/
theorem issued_of_accepted {calls : List (RouteCall Token)} {token : Token}
    (hknown : Known libs settings state calls token) {now : ℚ} {user : User}
    (haccepted : getCurrentUserAsync libs settings (after (route libs settings) state calls).users
      (some token) now = .ok user) :
    ∃ before call rest, calls = before ++ call :: rest ∧
      Issues token user.id
        (route libs settings (after (route libs settings) state before) call).1 ∧
      now < call.now + settings.jwtAccessTtlMinutes * 60 := by
  rcases hknown with ⟨answer, hanswer, hout⟩ | hgarbage
  · obtain ⟨before, call, rest, hsplit, rfl⟩ := mem_answers_iff.mp hanswer
    rcases signed_of_route hout with ⟨userId, jti, hissues, rfl⟩ | ⟨userId, jti, rfl⟩
    · obtain ⟨rfl, hlive⟩ := eq_of_accepted haccepted
      exact ⟨before, call, rest, hsplit, hissues, hlive⟩
    · exact absurd haccepted not_accepted_createWsToken
  · obtain ⟨payload, hdecode, -⟩ := decodes_of_accepted haccepted
    rw [decodeToken, hgarbage] at hdecode
    simp at hdecode

/-- A seed that adds the demo user. -/
def addDemoUser (state : AuthState) : AuthState :=
  { state with
    users := state.users ++ [⟨2, Demo.demoUsername, "salt" ++ Demo.demoPassword, 25000⟩] }

/-- A user registers and asks for a token for the WebSocket, and a visitor tries the demo. A request
with the access token of the user follows. -/
def registered : List (RouteCall Claims) :=
  [.handled ⟨.register "alice" "correct horse", ⟨"salt", "first", "refresh-1"⟩, 0⟩,
   .handled ⟨.wsToken (some (accessClaims {} 1 "first" 0)), ⟨"salt", "second", ""⟩, 5⟩,
   .demo addDemoUser ⟨"salt", "third", "refresh-2"⟩ 7]

/-- The token of the registration is the one that is accepted. -/
theorem issued_registered :
    ∃ before call rest, registered = before ++ call :: rest ∧
      Issues (accessClaims {} 1 "first" 0) 1
        (route transparentLibs {} (after (route transparentLibs {})
          { users := [], redis := .empty } before) call).1 ∧
      10 < call.now + (({} : Settings).jwtAccessTtlMinutes : ℚ) * 60 := by
  have hanswer : (answers (route transparentLibs {}) { users := [], redis := .empty }
      registered).head? = some (.tokens 201 (accessClaims {} 1 "first" 0) 900
        ⟨1, "alice", 100000⟩ "refresh-1" 604800) := by decide +kernel
  have hknown : Known transparentLibs {} { users := [], redis := .empty } registered
      (accessClaims {} 1 "first" 0) := .inl ⟨_, List.mem_of_head? hanswer, rfl⟩
  have haccepted : getCurrentUserAsync transparentLibs {} (after (route transparentLibs {})
      { users := [], redis := .empty } registered).users (some (accessClaims {} 1 "first" 0)) 10 =
        .ok ⟨1, "alice", "saltcorrect horse", 100000⟩ := by decide +kernel
  exact issued_of_accepted hknown haccepted

end TokenProvenance

end TradingSimulator
