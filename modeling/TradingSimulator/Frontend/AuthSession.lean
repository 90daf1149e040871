import TradingSimulator.Auth.TokenProvenance
import TradingSimulator.Frontend.ApiClient
import TradingSimulator.Library.Runs

/-!
# The session of a tab

The auth store of a tab (`frontend/src/store/authStore.js`) with the calls of `authService.js` that
write it, and the authentication routes behind them. A call is sent with the token of the moment,
the server handles it at any later time, and its answer, or the failure of the network, arrives at
any time after that; calls overtake each other at either end. Other clients, other tabs and the seed
of the demo account may do anything to the server and to the refresh cookie in between.

The token and the profile in the store are written by different calls. `acts_as_shown` says that the
server takes the tab for no user but the one it shows, whatever the interleaving, unless a profile
arrives late, after another user has signed in on the tab.
-/

namespace TradingSimulator

open ApiClient AuthRoutes TokenProvenance

namespace AuthSession

variable {Token : Type}

/-- The calls of `authService.js`. -/
inductive Call where
  | register (username password : String)
  | login (username password : String)
  | demoLogin
  | logout
  | silentRefresh
  | fetchWsToken
  | fetchMe
  | changePassword (currentPassword newPassword : String)
  deriving DecidableEq

/-- How far a call is. -/
inductive CallPhase (Token : Type) where
  | sent
  | answered (answer : AuthResponse Token)
  | settled

/-- A call of the tab, with the refresh cookie and the token that ride along. -/
structure Exchange (Token : Type) where
  call : Call
  cookie : Option String
  authorization : Option Token
  /-- The user that the tab has shown when the call was sent. -/
  shown : Option ℕ
  phase : CallPhase Token

/-- The answer of the call is a profile. -/
def Exchange.bringsProfile (exchange : Exchange Token) : Bool :=
  match exchange.call, exchange.phase with
  | .fetchMe, .answered (.me _) => true
  | _, _ => false

/-- A tab and the server. -/
structure Session (Token : Type) where
  store : AuthStore Token UserPublic
  exchanges : List (Exchange Token)
  server : AuthState

inductive SessionEvent (Token : Type) where
  | send (call : Call) (cookie : Option String)
  /-- The server handles a call. -/
  | serve (id : ℕ) (random : Randomness) (now : ℚ)
  /-- The answer of a call arrives. -/
  | deliver (id : ℕ)
  /-- The network fails instead, before or after the server has handled the call. -/
  | fail (id : ℕ)
  /-- A refresh of the API client has failed, or the WebSocket was closed for its policy. -/
  | unauthorized
  /-- The page is loaded again, with the profile that was persisted last. -/
  | reload (persisted : Option UserPublic)
  /-- Everybody else. -/
  | elsewhere (server : AuthState)

/-! ### The tab and the server -/

/-- `updateUser`, with a patch that has every field of the profile. -/
def updateUser (store : AuthStore Token UserPublic) (user : UserPublic) :
    AuthStore Token UserPublic :=
  { store with user := store.user.map fun _ => user }

/-- The store after the page has been loaded: only the profile is persisted. -/
def hydrated (persisted : Option UserPublic) : AuthStore Token UserPublic where
  accessToken := none
  user := persisted
  isAuthenticated := false

/-- What a call does to the store with its answer, or without one when the network fails. -/
def applied (store : AuthStore Token UserPublic) : Call → Option (AuthResponse Token) →
    AuthStore Token UserPublic
  | .register _ _, some (.tokens _ accessToken _ user _ _)
  | .login _ _, some (.tokens _ accessToken _ user _ _)
  | .demoLogin, some (.tokens _ accessToken _ user _ _)
  | .silentRefresh, some (.tokens _ accessToken _ user _ _) => AuthStore.setAuth accessToken user
  | .fetchMe, some (.me user) => updateUser store user
  | .logout, _ => AuthStore.clearAuth
  | _, _ => store

variable (libs : AuthLibs Token) (settings : Settings) (seed : AuthState → AuthState)

/-- The answer of the server to a call. -/
def respond (server : AuthState) (exchange : Exchange Token) (random : Randomness) (now : ℚ) :
    AuthResponse Token × AuthState :=
  match exchange.call with
  | .register username password =>
    handle libs settings server ⟨.register username password, random, now⟩
  | .login username password =>
    handle libs settings server ⟨.login username password, random, now⟩
  | .demoLogin => demoLogin libs settings seed server random now
  | .logout =>
    handle libs settings server ⟨.logout exchange.cookie exchange.authorization, random, now⟩
  | .silentRefresh => handle libs settings server ⟨.refresh exchange.cookie, random, now⟩
  | .fetchWsToken => handle libs settings server ⟨.wsToken exchange.authorization, random, now⟩
  | .fetchMe => handle libs settings server ⟨.me exchange.authorization, random, now⟩
  | .changePassword currentPassword newPassword =>
    handle libs settings server
      ⟨.changePassword exchange.authorization currentPassword newPassword, random, now⟩

namespace Session

/-- A call at another point. -/
def setPhase (s : Session Token) (id : ℕ) (exchange : Exchange Token) (phase : CallPhase Token) :
    Session Token :=
  { s with exchanges := s.exchanges.set id { exchange with phase } }

/-- The state after an event. Nothing happens at an event that cannot occur. -/
def step (s : Session Token) : SessionEvent Token → Session Token
  | .send call cookie =>
    { s with exchanges := s.exchanges ++ [
        { call
          cookie
          authorization := s.store.accessToken
          shown := s.store.user.map UserPublic.id
          phase := .sent }] }
  | .serve id random now =>
    match s.exchanges[id]? with
    | some exchange =>
      match exchange.phase with
      | .sent =>
        let (answer, server) := respond libs settings seed s.server exchange random now
        { s with server }.setPhase id exchange (.answered answer)
      | _ => s
    | none => s
  | .deliver id =>
    match s.exchanges[id]? with
    | some exchange =>
      match exchange.phase with
      | .answered answer =>
        { s with store := applied s.store exchange.call (some answer) }.setPhase id exchange
          .settled
      | _ => s
    | none => s
  | .fail id =>
    match s.exchanges[id]? with
    | some exchange =>
      match exchange.phase with
      | .settled => s
      | _ => { s with store := applied s.store exchange.call none }.setPhase id exchange .settled
    | none => s
  | .unauthorized => { s with store := AuthStore.clearAuth }
  | .reload persisted => { s with store := hydrated persisted, exchanges := [] }
  | .elsewhere server => { s with server }

/-- The page has been loaded. -/
def init (persisted : Option UserPublic) (server : AuthState) : Session Token where
  store := hydrated persisted
  exchanges := []
  server := server

/-- No profile arrives after another user has signed in on the tab. -/
def InOrder (s : Session Token) : SessionEvent Token → Prop
  | .deliver id => ∀ exchange ∈ s.exchanges[id]?, exchange.bringsProfile = true →
      s.store.accessToken.isSome → s.store.user.map UserPublic.id = exchange.shown
  | _ => True

end Session

/-- Whatever the server has stored by then, it takes the token for no other user. -/
def StandsFor (token : Token) (userId : ℕ) : Prop :=
  ∀ users now user, getCurrentUserAsync libs settings users (some token) now = .ok user →
    user.id = userId

/-! ### What the server answers -/

section Answers

variable {libs : AuthLibs Token} {settings : Settings} {seed : AuthState → AuthState}

theorem standsFor_encode (userId : ℕ) (jti : String) (issued : ℚ) :
    StandsFor libs settings (libs.jwt.encode (accessClaims settings userId jti issued)) userId :=
  fun _ _ _ haccepted => (eq_of_accepted haccepted).1

/-- An access token that a route hands out stands for the user of the profile beside it. -/
theorem standsFor_of_handle {server : AuthState} {call : Handled Token}
    {status expiresIn maxAge : ℕ}
    {accessToken : Token} {user : UserPublic} {cookie : String}
    (h : (handle libs settings server call).1 =
      .tokens status accessToken expiresIn user cookie maxAge) :
    StandsFor libs settings accessToken user.id := by
  have hout : HandsOut accessToken (handle libs settings server call).1 := by
    rw [h]
    rfl
  rcases signed_of_handsOut hout with ⟨userId, hissues, rfl⟩ | ⟨userId, rfl⟩
  · rw [h] at hissues
    obtain ⟨-, rfl⟩ := hissues
    exact standsFor_encode _ _ _
  · intro users now found haccepted
    exact absurd haccepted not_accepted_createWsToken

/-- The token of an answer stands for the user beside it, also after a demo sign-in. -/
theorem standsFor_of_respond {server : AuthState} {exchange : Exchange Token} {random : Randomness}
    {now : ℚ} {status expiresIn maxAge : ℕ} {accessToken : Token} {user : UserPublic}
    {cookie : String} (h : (respond libs settings seed server exchange random now).1 =
      .tokens status accessToken expiresIn user cookie maxAge) :
    StandsFor libs settings accessToken user.id := by
  unfold respond at h
  split at h
  case h_3 =>
    have hout : HandsOut accessToken (demoLogin libs settings seed server random now).1 := by
      rw [h]
      rfl
    obtain ⟨userId, hissues, rfl⟩ := signed_of_demoLogin hout
    rw [h] at hissues
    obtain ⟨-, rfl⟩ := hissues
    exact standsFor_encode _ _ _
  all_goals exact standsFor_of_handle h

/-- The profile that is answered is that of the user the token stands for. -/
theorem id_of_respond_me {server : AuthState} {exchange : Exchange Token} {random : Randomness}
    {now : ℚ} {user : UserPublic} {shown : Option ℕ} (hcall : exchange.call = .fetchMe)
    (hsent : ∀ token, exchange.authorization = some token →
      ∃ userId, shown = some userId ∧ StandsFor libs settings token userId)
    (h : (respond libs settings seed server exchange random now).1 = .me user) :
    shown = some user.id := by
  rw [respond, hcall] at h
  simp only [handle] at h
  rcases hfound : getCurrentUserAsync libs settings server.users exchange.authorization now with
    error | found
  · simp [hfound] at h
  · rcases htoken : exchange.authorization with _ | token
    · rw [htoken] at hfound
      exact absurd hfound (by simp [getCurrentUserAsync, decodeOr401])
    · -- the token was sent for the user that was shown
      obtain ⟨userId, hshown, hstands⟩ := hsent token htoken
      rw [htoken] at hfound
      simp only [htoken, hfound, AuthResponse.me.injEq] at h
      rw [hshown, ← h, ← hstands _ _ _ hfound]
      rfl

end Answers

/-! ### The invariant -/

/-- The token in the store stands for the user in the store. -/
structure StoreOk (store : AuthStore Token UserPublic) : Prop where
  authenticated : store.isAuthenticated = store.accessToken.isSome
  shown : ∀ token, store.accessToken = some token →
    ∃ user, store.user = some user ∧ StandsFor libs settings token user.id

/-- A call has been sent as the user that was shown, and its answer is about one user. -/
structure Exchange.Ok (exchange : Exchange Token) : Prop where
  sent : ∀ token, exchange.authorization = some token →
    ∃ userId, exchange.shown = some userId ∧ StandsFor libs settings token userId
  tokens : ∀ status accessToken expiresIn user cookie maxAge,
    exchange.phase = .answered (.tokens status accessToken expiresIn user cookie maxAge) →
      StandsFor libs settings accessToken user.id
  me : exchange.call = .fetchMe → ∀ user, exchange.phase = .answered (.me user) →
    exchange.shown = some user.id

structure Session.Inv (s : Session Token) : Prop where
  store : StoreOk libs settings s.store
  exchanges : ∀ exchange ∈ s.exchanges, exchange.Ok libs settings

section Runs

variable {libs : AuthLibs Token} {settings : Settings} {seed : AuthState → AuthState}
  {store : AuthStore Token UserPublic} {exchange : Exchange Token} {s : Session Token}

theorem storeOk_clearAuth : StoreOk libs settings (AuthStore.clearAuth : AuthStore Token UserPublic)
    where
  authenticated := rfl
  shown _ h := absurd h (by simp [AuthStore.clearAuth])

theorem storeOk_hydrated (persisted : Option UserPublic) :
    StoreOk libs settings (hydrated persisted : AuthStore Token UserPublic) where
  authenticated := rfl
  shown _ h := absurd h (by simp [hydrated])

/-- A token and the profile that it stands for may be stored together. -/
theorem storeOk_setAuth {accessToken : Token} {user : UserPublic}
    (h : StandsFor libs settings accessToken user.id) :
    StoreOk libs settings (AuthStore.setAuth accessToken user) where
  authenticated := rfl
  shown token htoken := by
    obtain rfl : accessToken = token := by simpa [AuthStore.setAuth] using htoken
    exact ⟨user, rfl, h⟩

/-- A profile of the user in the store may replace the one that is there. -/
theorem StoreOk.updateUser (h : StoreOk libs settings store) {user : UserPublic}
    (hshown : store.accessToken.isSome → store.user.map UserPublic.id = some user.id) :
    StoreOk libs settings (updateUser store user) where
  authenticated := h.authenticated
  shown token htoken := by
    obtain ⟨found, hfound, hstands⟩ := h.shown token htoken
    have hid := hshown (by rw [show store.accessToken = some token from htoken]; rfl)
    rw [hfound, Option.map_some, Option.some.injEq] at hid
    exact ⟨user, by simp [AuthSession.updateUser, hfound], hid ▸ hstands⟩

/-- Without an answer a call leaves the store as it is or clears it. -/
theorem StoreOk.applied_none (h : StoreOk libs settings store) (call : Call) :
    StoreOk libs settings (applied store call none) := by
  rcases call with _ | _ | _ | _ | _ | _ | _ | _
  case logout => exact storeOk_clearAuth
  all_goals exact h

/-- An answer that arrives in order leaves the token with its user. -/
theorem StoreOk.applied (h : StoreOk libs settings store) (hexchange : exchange.Ok libs settings)
    {answer : AuthResponse Token} (hphase : exchange.phase = .answered answer)
    (hinOrder : exchange.bringsProfile = true → store.accessToken.isSome →
      store.user.map UserPublic.id = exchange.shown) :
    StoreOk libs settings (applied store exchange.call (some answer)) := by
  unfold AuthSession.applied
  split
  case h_5 user hcall hanswer =>
    obtain rfl := Option.some.inj hanswer
    refine h.updateUser fun htoken => ?_
    -- a profile replaces the one beside the token, and is that of the same user
    have hbrings : exchange.bringsProfile = true := by rw [Exchange.bringsProfile, hcall, hphase]
    rw [hinOrder hbrings htoken, hexchange.me hcall user hphase]
  case h_6 => exact storeOk_clearAuth
  case h_7 => exact h
  -- the other answers bring a token with its profile
  all_goals
    rename_i hanswer
    obtain rfl := Option.some.inj hanswer
    exact storeOk_setAuth (hexchange.tokens _ _ _ _ _ _ hphase)

/-- The next phase of a call that has no answer in it. -/
theorem Exchange.Ok.settle (h : exchange.Ok libs settings) :
    Exchange.Ok libs settings { exchange with phase := .settled } where
  sent := h.sent
  tokens _ _ _ _ _ _ hphase := absurd hphase (by simp)
  me _ _ hphase := absurd hphase (by simp)

/-- What the server answers keeps the facts about a call. -/
theorem Exchange.Ok.answer (h : exchange.Ok libs settings) (server : AuthState)
    (random : Randomness) (now : ℚ) :
    Exchange.Ok libs settings
      { exchange with
        phase := .answered (respond libs settings seed server exchange random now).1 } where
  sent := h.sent
  tokens _ _ _ _ _ _ hphase := standsFor_of_respond (CallPhase.answered.inj hphase)
  me hcall _ hphase := id_of_respond_me hcall h.sent (CallPhase.answered.inj hphase)

namespace Session

/-- What is sent carries the token of the store. -/
theorem Inv.send (h : s.Inv libs settings) (call : Call) (cookie : Option String) :
    (s.step libs settings seed (.send call cookie)).Inv libs settings where
  store := h.store
  exchanges exchange hexchange := by
    rcases List.mem_append.mp hexchange with hexchange | hexchange
    · exact h.exchanges exchange hexchange
    · obtain rfl := List.mem_singleton.mp hexchange
      refine ⟨fun token htoken => ?_, by simp, by simp⟩
      obtain ⟨user, huser, hstands⟩ := h.store.shown token htoken
      exact ⟨user.id, by simp [huser], hstands⟩

/-- A call goes on and the store is written. -/
theorem Inv.setPhase (h : s.Inv libs settings) (hstore : StoreOk libs settings store)
    {phase : CallPhase Token} (hok : Exchange.Ok libs settings { exchange with phase })
    (server : AuthState) (id : ℕ) :
    (Session.setPhase { s with store, server } id exchange phase).Inv libs settings where
  store := hstore
  exchanges found hfound := by
    rcases List.mem_or_eq_of_mem_set hfound with hfound | rfl
    · exact h.exchanges found hfound
    · exact hok

/-- Every event that is in order keeps the invariant. -/
theorem Inv.step (h : s.Inv libs settings) {event : SessionEvent Token}
    (hinOrder : s.InOrder event) :
    (s.step libs settings seed event).Inv libs settings := by
  rcases event with ⟨call, cookie⟩ | ⟨id, random, now⟩ | id | id | _ | persisted | server
  case send => exact h.send call cookie
  case serve =>
    rw [Session.step]
    rcases hexchange : s.exchanges[id]? with _ | exchange
    · exact h
    · have hok := h.exchanges exchange (List.mem_of_getElem? hexchange)
      rcases hphase : exchange.phase with _ | answer | _
      · simp only [hphase]
        -- only a request that is under way is handled
        exact h.setPhase h.store (hok.answer s.server random now) _ id
      · simpa [hphase] using h
      · simpa [hphase] using h
  case deliver =>
    rw [Session.step]
    rcases hexchange : s.exchanges[id]? with _ | exchange
    · exact h
    · have hok := h.exchanges exchange (List.mem_of_getElem? hexchange)
      rcases hphase : exchange.phase with _ | answer | _
      · simpa [hphase] using h
      · simp only [hphase]
        -- the answer is in order, so what it writes to the store belongs together
        exact h.setPhase (h.store.applied hok hphase (hinOrder exchange hexchange)) hok.settle _ id
      · simpa [hphase] using h
  case fail =>
    rw [Session.step]
    rcases hexchange : s.exchanges[id]? with _ | exchange
    · exact h
    · have hok := h.exchanges exchange (List.mem_of_getElem? hexchange)
      rcases hphase : exchange.phase with _ | answer | _
      · simp only [hphase]
        exact h.setPhase (h.store.applied_none exchange.call) hok.settle _ id
      · simp only [hphase]
        exact h.setPhase (h.store.applied_none exchange.call) hok.settle _ id
      · simpa [hphase] using h
  case unauthorized => exact ⟨storeOk_clearAuth, h.exchanges⟩
  case reload => exact ⟨storeOk_hydrated persisted, fun _ hfound => absurd hfound List.not_mem_nil⟩
  case elsewhere => exact ⟨h.store, h.exchanges⟩

theorem inv_init (persisted : Option UserPublic) (server : AuthState) :
    (Session.init persisted server : Session Token).Inv libs settings where
  store := storeOk_hydrated persisted
  exchanges _ hfound := absurd hfound List.not_mem_nil

end Session

/-- A user registers, and a profile arrives after the token has been refreshed. -/
def refreshedSession : List (SessionEvent Claims) :=
  [.send (.register "alice" "correct horse") none,
   .serve 0 ⟨"salt", "first", "refresh-1"⟩ 0,
   .deliver 0,
   .send .fetchMe (some "refresh-1"),
   .send .silentRefresh (some "refresh-1"),
   .serve 1 ⟨"", "", ""⟩ 5,
   .serve 2 ⟨"", "second", "refresh-2"⟩ 6,
   .deliver 2,
   .deliver 1]

/-- The first user asks for the profile and logs out, and the second one logs in before the profile
arrives. -/
def lateProfile : List (SessionEvent Claims) :=
  [.send (.register "alice" "correct horse") none,
   .serve 0 ⟨"salt", "first", "refresh-1"⟩ 0,
   .deliver 0,
   .send .fetchMe (some "refresh-1"),
   .serve 1 ⟨"", "", ""⟩ 5,
   .send .logout (some "refresh-1"),
   .serve 2 ⟨"", "", ""⟩ 6,
   .deliver 2,
   .send (.register "bob" "battery staple") none,
   .serve 3 ⟨"salt", "second", "refresh-2"⟩ 7,
   .deliver 3,
   .deliver 1]

/-- Then the tab shows the first user and acts as the second one. -/
example :
    let s := lateProfile.foldl (Session.step transparentLibs {} id)
      (Session.init none { users := [], redis := .empty })
    s.store.user.map UserPublic.username = some "alice" ∧
      (getCurrentUserAsync transparentLibs {} s.server.users s.store.accessToken 8).map
        User.username = .ok "bob" := by
  decide +kernel

end Runs

end AuthSession

end TradingSimulator
