import TradingSimulator.Auth.AuthService
import TradingSimulator.Library.Runs

/-!
# Logged-out access tokens

`logout` writes the `jti` of the access token under `jti:blocked:` and no code reads it. This
module follows a run of register, login, refresh and logout calls and authenticated requests, with
the claims of every access token issued and the `jti` of every completed logout, and
`everyStep_rejectsRevoked_iff` says when no logged-out token is accepted again: exactly when each is
presented again only after its expiry.
-/

namespace TradingSimulator

/-- A call of a client. -/
inductive AuthCall (Token : Type) where
  | register (username password : String) (random : Randomness)
  | login (username password : String) (random : Randomness)
  | refresh (refreshToken : String) (random : Randomness)
  | logout (refreshToken : Option String) (authorization : Option Token)
  | request (credentials : Option Token)

/-- The service during a run: the time of the last call, the claims of the access tokens issued and
the `jti` of the completed logouts. -/
structure AuthRun where
  service : AuthState
  clock : ℚ
  issued : List Claims
  loggedOut : List String

namespace AuthRun

variable {Token : Type} (libs : AuthLibs Token) (settings : Settings)

/-- Before the first call. -/
def start : AuthRun where
  service := { users := [], redis := .empty }
  clock := 0
  issued := []
  loggedOut := []

/-- Note the access token of a successful call. -/
def afterIssue (s : AuthRun) (now : ℚ)
    (result : Except ServiceError (TokenPair Token) × AuthState) : AuthRun where
  service := result.2
  clock := now
  issued :=
    match result.1 with
    | .ok pair => accessClaims settings pair.user.id pair.accessJti now :: s.issued
    | .error _ => s.issued
  loggedOut := s.loggedOut

/-- The run after a call that comes `delay` seconds after the last one. -/
def step (s : AuthRun) (call : ℚ × AuthCall Token) : AuthRun :=
  let now := s.clock + call.1
  match call.2 with
  | .register username password random =>
    s.afterIssue settings now (register libs settings s.service username password random now)
  | .login username password random =>
    s.afterIssue settings now (login libs settings s.service username password random now)
  | .refresh refreshToken random =>
    s.afterIssue settings now (refresh libs settings s.service refreshToken random now)
  | .logout refreshToken authorization =>
    -- a bearer token that does not decode logs no access token out
    let jti := logoutJti libs settings authorization now
    { service := { s.service with redis := logout settings s.service.redis refreshToken jti now }
      clock := now
      issued := s.issued
      loggedOut := jti.toList ++ s.loggedOut }
  | .request _ => { s with clock := now }

/-- A request with an issued access token whose `jti` was logged out is not accepted. -/
def RejectsRevoked (s : AuthRun) (call : ℚ × AuthCall Token) : Prop :=
  match call.2 with
  | .request credentials => ∀ claims ∈ s.issued, claims.jti ∈ s.loggedOut →
      credentials = some (libs.jwt.encode claims) → ∀ user,
        getCurrentUser libs settings s.service.users credentials (s.clock + call.1) ≠ .ok user ∧
        getCurrentUserAsync libs settings s.service.users credentials (s.clock + call.1) ≠ .ok user
  | _ => True

/-- A request with an issued access token whose `jti` was logged out comes after its expiry. -/
def RevokedExpired (s : AuthRun) (call : ℚ × AuthCall Token) : Prop :=
  match call.2 with
  | .request credentials => ∀ claims ∈ s.issued, claims.jti ∈ s.loggedOut →
      credentials = some (libs.jwt.encode claims) → (claims.exp : ℚ) ≤ s.clock + call.1
  | _ => True

/-! ### What is known of issued tokens -/

/-- The claims are those of an access token of an existing user, issued by now. -/
structure Genuine (users : List User) (clock : ℚ) (claims : Claims) : Prop where
  aud : claims.aud = settings.jwtAudience
  type : claims.type = tokenTypeAccess
  iat : (claims.iat : ℚ) ≤ clock
  user : ∃ id user, claims.sub = toString id ∧ userById users id = some user

/-- All issued tokens are genuine. -/
def Inv (s : AuthRun) : Prop :=
  ∀ claims ∈ s.issued, Genuine settings s.service.users s.clock claims

variable {libs settings}

/-- No user disappears from `users` to `users'`. -/
def KeepsUsers (users users' : List User) : Prop :=
  ∀ id, (userById users id).isSome → (userById users' id).isSome

/-- A genuine token stays genuine. -/
theorem Genuine.later {users users' : List User} {clock now : ℚ} {claims : Claims}
    (h : Genuine settings users clock claims) (hkeeps : KeepsUsers users users')
    (hnow : clock ≤ now) : Genuine settings users' now claims where
  aud := h.aud
  type := h.type
  iat := h.iat.trans hnow
  user := by
    obtain ⟨id, user, hsub, huser⟩ := h.user
    obtain ⟨user', huser'⟩ := Option.isSome_iff_exists.mp (hkeeps id (by simp [huser]))
    exact ⟨id, user', hsub, huser'⟩

/-- The claims of a new access token of an existing user are genuine. -/
theorem genuine_accessClaims {users : List User} {id : ℕ} (huser : (userById users id).isSome)
    (jti : String) (now : ℚ) :
    Genuine settings users now (accessClaims settings id jti now) where
  aud := rfl
  type := rfl
  iat := Int.floor_le now
  user := by
    obtain ⟨user, huser⟩ := Option.isSome_iff_exists.mp huser
    exact ⟨id, user, rfl, huser⟩

/-- What a service call guarantees: no user disappears, and the user of a token it issues
exists. -/
structure IssuesFor (users : List User)
    (result : Except ServiceError (TokenPair Token) × AuthState) : Prop where
  keeps : KeepsUsers users result.2.users
  user : ∀ pair, result.1 = .ok pair → (userById result.2.users pair.user.id).isSome

/-- A failed call that leaves the users alone issues nothing. -/
theorem IssuesFor.error {users : List User} (error : ServiceError) {state : AuthState}
    (hsame : state.users = users) :
    IssuesFor users ((.error error : Except ServiceError (TokenPair Token)), state) where
  keeps := by
    subst hsame
    exact fun _ h => h
  user := by simp

/-- Issuing tokens for an existing user. -/
theorem IssuesFor.ok {users : List User} {state : AuthState} {user : User} (random : Randomness)
    (now : ℚ) (hkeeps : KeepsUsers users state.users)
    (huser : (userById state.users user.id).isSome) :
    IssuesFor users (.ok (issueTokens libs settings state user random now).1,
      (issueTokens libs settings state user random now).2) where
  keeps := hkeeps
  user := by
    rintro pair hpair
    obtain rfl := Except.ok.inj hpair
    exact huser

/-- Every user in the table is found by id. -/
theorem userById_isSome_of_mem {users : List User} {user : User} (h : user ∈ users) :
    (userById users user.id).isSome := by
  rw [← Option.ne_none_iff_isSome, userById, Ne, KeyedRows.lookup_eq_none_iff]
  intro hnone
  exact hnone user h rfl

/-- A registration issues its tokens for the user that it adds. -/
theorem register_issuesFor (state : AuthState) (username password : String) (random : Randomness)
    (now : ℚ) :
    IssuesFor state.users (register libs settings state username password random now) := by
  rw [register]
  split_ifs
  · exact IssuesFor.error _ rfl
  · exact IssuesFor.error _ rfl
  · exact IssuesFor.error _ rfl
  · split
    · exact IssuesFor.error _ rfl
    · -- the new row is appended, so the rows before it are found as they were
      refine IssuesFor.ok random now ?_ (userById_isSome_of_mem (by simp))
      intro id hid
      obtain ⟨user, huser⟩ := Option.isSome_iff_exists.mp hid
      simp only [userById, KeyedRows.lookup] at huser ⊢
      simp [List.find?_append, huser]

/-- A login issues its tokens for a user that it has found. -/
theorem login_issuesFor (state : AuthState) (username password : String) (random : Randomness)
    (now : ℚ) :
    IssuesFor state.users (login libs settings state username password random now) := by
  rw [login]
  cases huser : userByName state.users (libs.strip username) with
  | none => exact IssuesFor.error _ rfl
  | some user =>
    have hmem : (userById state.users user.id).isSome :=
      userById_isSome_of_mem (KeyedRows.mem_of_lookup huser).1
    simp only
    split_ifs
    · exact IssuesFor.error _ rfl
    · split
      · exact IssuesFor.error _ rfl
      · next hashedPassword _ =>
        -- the row is replaced by one with the same id
        let row : User := { user with hashedPassword }
        refine IssuesFor.ok random now ?_ ?_
        · intro id hid
          by_cases hsame : row.id = id
          · subst hsame
            rw [userById, KeyedRows.lookup_put_self row state.users]
            rfl
          · have hother : userById (KeyedRows.put User.id row state.users) id =
                userById state.users id := KeyedRows.lookup_put_of_ne hsame state.users
            rwa [hother]
        · rw [userById, KeyedRows.lookup_put_self row state.users]
          rfl
    · exact IssuesFor.ok random now (fun _ h => h) hmem

/-- A refresh issues its tokens for the user of the record. -/
theorem refresh_issuesFor (state : AuthState) (refreshToken : String) (random : Randomness)
    (now : ℚ) : IssuesFor state.users (refresh libs settings state refreshToken random now) := by
  rw [refresh]
  split_ifs
  · exact IssuesFor.error _ rfl
  · simp only
    split
    · exact IssuesFor.error _ rfl
    · exact IssuesFor.error _ rfl
    · split
      · exact IssuesFor.error _ rfl
      · split
        · exact IssuesFor.error _ rfl
        · next user huser =>
          refine IssuesFor.ok random now (fun _ h => h) ?_
          exact userById_isSome_of_mem (KeyedRows.mem_of_lookup huser).1

/-- Noting the tokens of a service call keeps the invariant. -/
theorem inv_afterIssue {s : AuthRun} (hinv : s.Inv settings) {now : ℚ} (hnow : s.clock ≤ now)
    {result : Except ServiceError (TokenPair Token) × AuthState}
    (hresult : IssuesFor s.service.users result) :
    (s.afterIssue settings now result).Inv settings := by
  have hold : ∀ claims ∈ s.issued, Genuine settings result.2.users now claims :=
    fun claims hclaims => (hinv claims hclaims).later hresult.keeps hnow
  obtain ⟨outcome, state⟩ := result
  cases outcome with
  | error error => exact hold
  | ok pair =>
    intro claims hclaims
    -- the new token, or one issued before
    rcases List.mem_cons.mp hclaims with rfl | hclaims
    · exact genuine_accessClaims (hresult.user pair rfl) pair.accessJti now
    · exact hold claims hclaims

/-- Every call keeps the invariant. -/
theorem step_inv (s : AuthRun) (call : ℚ × AuthCall Token) (hdelay : 0 ≤ call.1)
    (hinv : s.Inv settings) : (s.step libs settings call).Inv settings := by
  obtain ⟨delay, call⟩ := call
  have hnow : s.clock ≤ s.clock + delay := le_add_of_nonneg_right hdelay
  have hold : ∀ claims ∈ s.issued, Genuine settings s.service.users (s.clock + delay) claims :=
    fun claims hclaims => (hinv claims hclaims).later (fun _ h => h) hnow
  cases call with
  | register username password random =>
    exact inv_afterIssue hinv hnow (register_issuesFor ..)
  | login username password random => exact inv_afterIssue hinv hnow (login_issuesFor ..)
  | refresh refreshToken random => exact inv_afterIssue hinv hnow (refresh_issuesFor ..)
  | logout refreshToken authorization => exact hold
  | request credentials => exact hold

/-- A logged-out token is rejected exactly when it has expired. -/
theorem rejectsRevoked_iff {s : AuthRun} (hinv : s.Inv settings) {call : ℚ × AuthCall Token}
    (hdelay : 0 ≤ call.1) :
    s.RejectsRevoked libs settings call ↔ s.RevokedExpired libs call := by
  obtain ⟨delay, call⟩ := call
  cases call with
  | request credentials =>
    simp only [RejectsRevoked, RevokedExpired]
    refine forall₂_congr fun claims hclaims => forall_congr' fun _ => ?_
    have hgenuine := hinv claims hclaims
    obtain ⟨id, user, hsub, huser⟩ := hgenuine.user
    constructor
    · -- a token that has not expired is accepted, whatever the store says of its `jti`
      rintro hrejects rfl
      by_contra hlive
      refine (hrejects rfl user).1 ?_
      rw [getCurrentUser_encode_access libs settings hgenuine.aud hgenuine.type
        (hgenuine.iat.trans (le_add_of_nonneg_right hdelay)) hsub huser, if_pos (not_le.mp hlive)]
    · rintro hexpired rfl user'
      rw [getCurrentUserAsync_eq, getCurrentUser_encode_access libs settings hgenuine.aud
        hgenuine.type (hgenuine.iat.trans (le_add_of_nonneg_right hdelay)) hsub huser,
        if_neg (not_lt.mpr (hexpired rfl))]
      simp
  | _ => exact Iff.rfl

/-- In every run no logged-out access token is accepted again exactly when each is presented again
only after its expiry. -/
theorem everyStep_rejectsRevoked_iff (libs : AuthLibs Token) (settings : Settings)
    (calls : List (ℚ × AuthCall Token)) (hdelays : ∀ call ∈ calls, 0 ≤ call.1) :
    Runs.EveryStep (step libs settings) (RejectsRevoked libs settings) start calls ↔
      Runs.EveryStep (step libs settings) (RevokedExpired libs) start calls := by
  have hstart : start.Inv settings := by
    intro claims hclaims
    simp [start] at hclaims
  exact Runs.everyStep_congr (fun s call hdelay hinv => step_inv s call hdelay hinv)
    (fun _ _ hdelay hinv => rejectsRevoked_iff hinv hdelay) hstart hdelays

end AuthRun

/-! ### A logged-out token that is accepted -/

/-- Tokens that are their claims, as signed by a key nobody else has. -/
def transparentJwt : JwtLib Claims where
  encode := id
  decode audience now token :=
    if token.aud = audience ∧ (token.iat : ℚ) ≤ now ∧ now < token.exp then some token else none
  isEmpty _ := false
  decode_encode _ _ _ := rfl
  isEmpty_encode _ := rfl

/-- Libraries to run the service with. -/
def transparentLibs : AuthLibs Claims where
  jwt := transparentJwt
  hashpw password salt := salt ++ password
  checkpw password hashed := hashed.endsWith password
  strip := id

/-- Register, log out, and send a request with the token `delay` seconds later. -/
def logoutThenRequest (delay : ℚ) : List (ℚ × AuthCall Claims) :=
  let token := accessClaims {} 1 "first" 0
  [(0, .register "alice" "correct horse" ⟨"salt", "first", "refresh-1"⟩),
   (1, .logout (some "refresh-1") (some token)),
   (delay, .request (some token))]

/-- The token has expired when it is sent again. -/
theorem everyStep_rejectsRevoked_afterExpiry :
    Runs.EveryStep (AuthRun.step transparentLibs {}) (AuthRun.RejectsRevoked transparentLibs {})
      .start (logoutThenRequest 900) := by
  refine (AuthRun.everyStep_rejectsRevoked_iff transparentLibs {} (logoutThenRequest 900)
    (by simp [logoutThenRequest])).mpr ?_
  simp only [logoutThenRequest, Runs.everyStep_cons]
  refine ⟨trivial, trivial, ?_, Runs.everyStep_nil⟩
  intro claims hclaims _ hpresented
  obtain rfl : accessClaims {} 1 "first" 0 = claims := Option.some.inj hpresented
  decide +kernel

/-- One second after its logout the token is still accepted. -/
theorem logoutThenRequest_accepted :
    ¬ Runs.EveryStep (AuthRun.step transparentLibs {}) (AuthRun.RejectsRevoked transparentLibs {})
      .start (logoutThenRequest 1) := by
  intro h
  have hrejects := h ((logoutThenRequest 1).take 2)
    (1, .request (some (accessClaims {} 1 "first" 0)))
    List.prefix_rfl
  let user : User := ⟨1, "alice", "salt" ++ "correct horse", 100000⟩
  refine (hrejects (accessClaims {} 1 "first" 0) ?_ ?_ rfl user).1 ?_
  · decide +kernel
  · decide +kernel
  · decide +kernel

end TradingSimulator
