import TradingSimulator.Library.Runs
import TradingSimulator.Library.SingleFlight

/-!
# The silent refresh of the API client

The response interceptor of `apiClient` (`frontend/src/services/apiClient.js`) as an event system.
A request that is answered with 401 joins the refresh in flight and is sent again when that one has
succeeded. The answers to requests and to refreshes, the `finally` of a refresh and the resumption
of every single waiter are separate events, in any order in which the event loop may bring them.

`silentRefresh_singleFlight` states what holds in every state of every run.
-/

namespace TradingSimulator.ApiClient

open SingleFlight

/-- The auth store. -/
structure AuthStore (Token User : Type) where
  accessToken : Option Token
  user : Option User
  isAuthenticated : Bool

/-- The configuration of a request, as far as the interceptors read it. -/
structure RequestConfig (Token : Type) where
  /-- The URL contains `/auth/`. -/
  isAuthEndpoint : Bool
  authorization : Option Token
  /-- `_retried`, which a request that is sent again keeps. -/
  retried : Bool

inductive RejectionKind where
  | network
  | auth
  | api
  deriving DecidableEq

/-- What a request is rejected with. -/
structure Rejection where
  message : String
  status : Option ℕ
  kind : RejectionKind
  deriving DecidableEq

/-- How far a request is. -/
inductive RequestPhase where
  | inFlight
  /-- Its interceptor awaits the refresh. -/
  | awaiting
  | resolved
  | rejected (rejection : Rejection)
  deriving DecidableEq

/-- A request of the application, with the refresh it has joined and how often it was sent
again. -/
structure Request (Token : Type) where
  config : RequestConfig Token
  phase : RequestPhase
  joined : Option ℕ
  resends : ℕ

/-- What is returned for a request: the message of an error status is taken from its body. -/
inductive Response where
  | ok
  | network
  | status (code : ℕ) (message : String)

/-- What is returned for `POST /auth/refresh`. -/
inductive RefreshResponse (Token User : Type) where
  | failed
  | data (accessToken : Option Token) (user : Option User)

/-- The state of the client: the calls of `performSilentRefresh` are shared through
`refreshInFlight`. -/
structure ClientState (Token User : Type) where
  requests : List (Request Token)
  refreshInFlight : Flights (Token × User)
  store : AuthStore Token User
  pathname : String

inductive ClientEvent (Token User : Type) where
  /-- The application sends a request. -/
  | send (isAuthEndpoint : Bool)
  /-- Some other part of the application writes the auth store. -/
  | writeStore (store : AuthStore Token User)
  /-- A request is answered. -/
  | respond (id : ℕ) (response : Response)
  /-- A refresh is answered. -/
  | refreshResponse (refresh : ℕ) (response : RefreshResponse Token User)
  /-- The `finally` of a refresh. -/
  | refreshFinally (refresh : ℕ)
  /-- A request that awaits a refresh goes on. -/
  | resume (id : ℕ)

section Definitions

variable {Token User : Type}

def AuthStore.setAuth (accessToken : Token) (user : User) : AuthStore Token User where
  accessToken := some accessToken
  user := some user
  isAuthenticated := true

def AuthStore.clearAuth : AuthStore Token User where
  accessToken := none
  user := none
  isAuthenticated := false

/-- The request interceptor. -/
def requestInterceptor (store : AuthStore Token User) (config : RequestConfig Token) :
    RequestConfig Token :=
  { config with authorization := store.accessToken.or config.authorization }

def networkError : Rejection where
  message := "Network error. Backend unreachable."
  status := none
  kind := .network

def sessionExpired : Rejection where
  message := "Session expired. Please log in again."
  status := some 401
  kind := .auth

/-- What `performSilentRefresh` returns: a response without a token or a user is malformed. -/
def refreshResult : RefreshResponse Token User → Option (Token × User)
  | .data (some accessToken) (some user) => some (accessToken, user)
  | _ => none

namespace ClientState

/-- A request at another point. -/
def setRequest (s : ClientState Token User) (id : ℕ) (request : Request Token) :
    ClientState Token User :=
  { s with requests := s.requests.set id request }

/-- The response interceptor, up to the first `await`. -/
def responseInterceptor (s : ClientState Token User) (id : ℕ) (request : Request Token) :
    Response → ClientState Token User
  | .ok => s.setRequest id { request with phase := .resolved }
  | .network => s.setRequest id { request with phase := .rejected networkError }
  | .status code message =>
    if code = 401 ∧ request.config.retried = false ∧ request.config.isAuthEndpoint = false then
      -- `getRefreshPromise`
      let (refreshInFlight, refresh) := s.refreshInFlight.join
      { s with refreshInFlight }.setRequest id
        { request with
          config := { request.config with retried := true }
          phase := .awaiting
          joined := some refresh }
    else
      s.setRequest id { request with phase := .rejected ⟨message, some code, .api⟩ }

/-- The response interceptor, after the refresh it has joined: the request is sent again through
the request interceptor, or the user is sent to the login page. -/
def afterRefresh (s : ClientState Token User) (id : ℕ) (request : Request Token) :
    Option (Token × User) → ClientState Token User
  | some (accessToken, _) =>
    s.setRequest id
      { request with
        config := requestInterceptor s.store
          { request.config with authorization := some accessToken }
        phase := .inFlight
        resends := request.resends + 1 }
  | none =>
    { s with store := AuthStore.clearAuth, pathname := "/login" }.setRequest id
      { request with phase := .rejected sessionExpired }

/-- The state after an event, `none` when the event cannot occur. -/
def step (s : ClientState Token User) : ClientEvent Token User → Option (ClientState Token User)
  | .send isAuthEndpoint =>
    some { s with requests := s.requests ++ [{
      config := requestInterceptor s.store
        { isAuthEndpoint, authorization := none, retried := false }
      phase := .inFlight
      joined := none
      resends := 0 }] }
  | .writeStore store => some { s with store }
  | .respond id response =>
    match s.requests[id]? with
    | none => none
    | some request =>
      if request.phase = .inFlight then some (s.responseInterceptor id request response) else none
  -- `performSilentRefresh` writes the store before its promise is settled
  | .refreshResponse refresh response =>
    (s.refreshInFlight.answer refresh (refreshResult response)).map fun refreshInFlight =>
      match refreshResult response with
      | some (accessToken, user) =>
        { s with refreshInFlight, store := AuthStore.setAuth accessToken user }
      | none => { s with refreshInFlight }
  | .refreshFinally refresh =>
    (s.refreshInFlight.finish refresh).map fun refreshInFlight => { s with refreshInFlight }
  -- only a waiter whose refresh is settled can go on
  | .resume id =>
    match s.requests[id]? with
    | none => none
    | some request =>
      if request.phase = .awaiting then
        match request.joined.bind fun refresh => s.refreshInFlight.calls[refresh]? with
        | some (.over result) => some (s.afterRefresh id request result)
        | _ => none
      else none

/-- The page has been loaded. -/
def init (store : AuthStore Token User) (pathname : String) : ClientState Token User where
  requests := []
  refreshInFlight := Flights.none
  store := store
  pathname := pathname

/-- Request `id` awaits the refresh. -/
def Waiting (s : ClientState Token User) (refresh id : ℕ) : Prop :=
  ∃ request, s.requests[id]? = some request ∧ request.phase = .awaiting ∧
    request.joined = some refresh

/-- What a waiter has become of after its refresh. -/
def Request.Resumed (result : Option (Token × User)) (request : Request Token) : Prop :=
  match result with
  | some _ => request.phase = .inFlight ∧ request.resends = 1
  | none => request.phase = .rejected sessionExpired ∧ request.resends = 0

/-- What holds of the requests and the refreshes at any time. -/
structure SingleFlightRefresh (s : ClientState Token User) : Prop where
  /-- At most one `POST /auth/refresh` is outstanding. -/
  outstanding : ∀ j k, s.refreshInFlight.Running j → s.refreshInFlight.Running k → j = k
  /-- A request is sent again at most once. -/
  resends : ∀ request ∈ s.requests, request.resends ≤ 1
  /-- A request that gets its first 401 while a refresh is outstanding joins that one, and no other
  is started. -/
  joins : ∀ refresh id request message, s.refreshInFlight.Running refresh →
    s.requests[id]? = some request → request.phase = .inFlight → request.config.retried = false →
    request.config.isAuthEndpoint = false →
    s.step (.respond id (.status 401 message)) = some (s.setRequest id
      { request with
        config := { request.config with retried := true }
        phase := .awaiting
        joined := some refresh })
  /-- Until its refresh is over, a request waits. -/
  waits : ∀ request ∈ s.requests, ∀ refresh, request.joined = some refresh →
    (∀ result, s.refreshInFlight.calls[refresh]? ≠ some (.over result)) →
    request.phase = .awaiting ∧ request.resends = 0
  /-- After that it waits for its turn, or it was sent again if and only if the refresh has
  succeeded, and was rejected if it has failed. -/
  outcome : ∀ request ∈ s.requests, ∀ refresh result, request.joined = some refresh →
    s.refreshInFlight.calls[refresh]? = some (.over result) →
    (request.phase = .awaiting ∧ request.resends = 0) ∨
      (request.resends = if result.isSome then 1 else 0) ∧
        (result = none → request.phase = .rejected sessionExpired)
  /-- In whatever order the waiters of a refresh go on, all of them are sent again if it has
  succeeded, and otherwise all of them are rejected and the store is cleared. -/
  drains : ∀ refresh result order, s.refreshInFlight.calls[refresh]? = some (.over result) →
    order.Nodup → (∀ id ∈ order, s.Waiting refresh id) →
    ∃ s', Runs.exec step s (order.map .resume) = some s' ∧
      (∀ id ∈ order, ∃ request, s'.requests[id]? = some request ∧
        Request.Resumed result request) ∧
      (result = none → order ≠ [] → s'.store = AuthStore.clearAuth)

end ClientState

end Definitions

/-! ### The invariant of the requests -/

section Invariant

variable {Token User : Type}

/-- The refresh that a request has joined tells how far the request is. -/
def Request.Consistent (calls : List (Phase (Token × User))) (request : Request Token) : Prop :=
  match request.joined with
  | none => request.config.retried = false ∧ request.phase ≠ .awaiting ∧ request.resends = 0
  | some refresh => request.config.retried = true ∧
      ((request.phase = .awaiting ∧ request.resends = 0) ∨
        (request.phase ≠ .awaiting ∧ request.resends = 1 ∧
          ∃ session, calls[refresh]? = some (.over (some session))) ∨
        (request.phase = .rejected sessionExpired ∧ request.resends = 0 ∧
          calls[refresh]? = some (.over none)))

/-- A call that is over stays over. -/
def Settled (calls calls' : List (Phase (Token × User))) : Prop :=
  ∀ (k : ℕ) result, calls[k]? = some (.over result) → calls'[k]? = some (.over result)

/-- A refresh that is over stays over, so a request stays consistent with it. -/
theorem Request.Consistent.mono {calls calls' : List (Phase (Token × User))}
    {request : Request Token} (h : request.Consistent calls) (hsettled : Settled calls calls') :
    request.Consistent calls' := by
  unfold Request.Consistent at h ⊢
  split at h
  · exact h
  · obtain ⟨hretried,
      hwaits | ⟨hphase, hresends, session, hsession⟩ | ⟨hphase, hresends, hfailed⟩⟩ := h
    · exact ⟨hretried, Or.inl hwaits⟩
    · exact ⟨hretried, Or.inr (Or.inl ⟨hphase, hresends, session, hsettled _ _ hsession⟩)⟩
    · exact ⟨hretried, Or.inr (Or.inr ⟨hphase, hresends, hsettled _ _ hfailed⟩)⟩

/-- Another phase of a call that was not over. -/
theorem settled_set {calls : List (Phase (Token × User))} {k : ℕ}
    {old new : Phase (Token × User)} (hold : calls[k]? = some old) (hactive : old.Active) :
    Settled calls (calls.set k new) := by
  intro j result hj
  rcases eq_or_ne k j with rfl | hne
  · cases hold.symm.trans hj
    exact hactive.elim
  · rwa [List.getElem?_set_ne hne]

namespace ClientState

/-- All requests are consistent with the refreshes. -/
def Consistent (s : ClientState Token User) : Prop :=
  ∀ request ∈ s.requests, request.Consistent s.refreshInFlight.calls

/-- A request that is consistent with the refreshes may be written back. -/
theorem Consistent.setRequest {s : ClientState Token User} (h : s.Consistent) (id : ℕ)
    {request : Request Token} (hrequest : request.Consistent s.refreshInFlight.calls) :
    (s.setRequest id request).Consistent := by
  intro other hother
  rcases List.mem_or_eq_of_mem_set hother with hold | rfl
  · exact h other hold
  · exact hrequest

/-- A request that is answered finds the refresh it has joined before over, if any. -/
theorem consistent_responseInterceptor {s : ClientState Token User} (h : s.Consistent) {id : ℕ}
    {request : Request Token} (hrequest : s.requests[id]? = some request)
    (hphase : request.phase = .inFlight) (response : Response) :
    (s.responseInterceptor id request response).Consistent := by
  have hold := h request (List.mem_of_getElem? hrequest)
  -- an answer that ends the request keeps it consistent
  have hends : ∀ phase : RequestPhase, phase ≠ .awaiting →
      Request.Consistent s.refreshInFlight.calls { request with phase } := by
    intro phase hne
    unfold Request.Consistent at hold ⊢
    cases hjoined : request.joined with
    | none =>
      rw [hjoined] at hold
      exact ⟨hold.1, hne, hold.2.2⟩
    | some refresh =>
      simp only [hjoined, hphase] at hold ⊢
      obtain ⟨hretried, hwaits | hresent | hfailed⟩ := hold
      · exact absurd hwaits.1 (by simp)
      · exact ⟨hretried, Or.inr (Or.inl ⟨hne, hresent.2⟩)⟩
      · exact absurd hfailed.1 (by simp)
  cases response with
  | ok => exact h.setRequest id (hends _ (by simp))
  | network => exact h.setRequest id (hends _ (by simp))
  | status code message =>
    simp only [responseInterceptor]
    split_ifs with hrefresh
    · -- the first 401: the request joins a refresh and waits for it
      have hjoin := (Flights.join_spec s.refreshInFlight).1
      refine Consistent.setRequest (fun other hother => ?_) id ?_
      · exact (h other hother).mono fun k result hk => hjoin k _ hk
      · unfold Request.Consistent at hold ⊢
        cases hjoined : request.joined with
        | none =>
          rw [hjoined] at hold
          exact ⟨rfl, Or.inl ⟨rfl, hold.2.2⟩⟩
        | some refresh =>
          rw [hjoined] at hold
          exact absurd (hold.1.symm.trans hrefresh.2.1) (by simp)
    · exact h.setRequest id (hends _ (by simp))

/-- A waiter goes on when the refresh it has joined is over, and is re-sent for the first time. -/
theorem consistent_afterRefresh {s : ClientState Token User} (h : s.Consistent) {id refresh : ℕ}
    {request : Request Token} {result : Option (Token × User)}
    (hrequest : s.requests[id]? = some request) (hphase : request.phase = .awaiting)
    (hjoined : request.joined = some refresh)
    (hover : s.refreshInFlight.calls[refresh]? = some (.over result)) :
    (s.afterRefresh id request result).Consistent ∧ request.resends = 0 := by
  have hold := h request (List.mem_of_getElem? hrequest)
  unfold Request.Consistent at hold
  simp only [hjoined, hphase] at hold
  obtain ⟨hretried, hwaits⟩ := hold
  -- a request is only sent again once it has stopped waiting
  have hzero : request.resends = 0 := by
    rcases hwaits with hwaits | hresent | hfailed
    · exact hwaits.2
    · exact absurd rfl hresent.1
    · exact hfailed.2.1
  refine ⟨?_, hzero⟩
  cases result with
  | none =>
    refine Consistent.setRequest (s := { s with store := _, pathname := _ }) h id ?_
    unfold Request.Consistent
    simp only [hjoined]
    exact ⟨hretried, Or.inr (Or.inr ⟨trivial, hzero, hover⟩)⟩
  | some session =>
    refine h.setRequest id ?_
    unfold Request.Consistent
    simp only [hjoined, requestInterceptor]
    exact ⟨hretried, Or.inr (Or.inl ⟨by simp, by omega, session, hover⟩)⟩

/-- The requests are consistent with the refreshes after every event. -/
theorem consistent_step {s s' : ClientState Token User} {event : ClientEvent Token User}
    (h : s.Consistent) (hstep : s.step event = some s') : s'.Consistent := by
  cases event with
  | send isAuthEndpoint =>
    cases hstep
    intro request hrequest
    rcases List.mem_append.mp hrequest with hold | hnew
    · exact h request hold
    · rw [List.mem_singleton.mp hnew]
      exact ⟨rfl, by simp, rfl⟩
  | writeStore store =>
    cases hstep
    exact h
  | respond id response =>
    simp only [step] at hstep
    split at hstep
    · cases hstep
    · next request hrequest =>
      split_ifs at hstep with hphase
      cases hstep
      exact consistent_responseInterceptor h hrequest hphase response
  | refreshResponse refresh response =>
    -- the requests are untouched, and a call that was running is answered now
    obtain ⟨flights, hanswer, rfl⟩ := Option.map_eq_some_iff.mp hstep
    obtain ⟨hrunning, hcalls⟩ := Flights.answer_spec hanswer
    have hkept : ∀ request ∈ s.requests, request.Consistent flights.calls :=
      fun request hrequest =>
        (h request hrequest).mono (hcalls ▸ settled_set hrunning trivial)
    split <;> exact hkept
  | refreshFinally refresh =>
    obtain ⟨flights, hfinish, rfl⟩ := Option.map_eq_some_iff.mp hstep
    obtain ⟨result, hanswered, hcalls⟩ := Flights.finish_spec hfinish
    exact fun request hrequest =>
      (h request hrequest).mono (hcalls ▸ settled_set hanswered trivial)
  | resume id =>
    simp only [step] at hstep
    split at hstep
    · cases hstep
    · next request hrequest =>
      split_ifs at hstep with hphase
      split at hstep
      · next result hover =>
        obtain ⟨refresh, hjoined, hcall⟩ := Option.bind_eq_some_iff.mp hover
        cases hstep
        exact (consistent_afterRefresh h hrequest hphase hjoined hcall).1
      · cases hstep

/-! ### Draining the waiters -/

/-- A waiter goes on with what its refresh ended with. -/
theorem step_resume {s : ClientState Token User} {id refresh : ℕ} {request : Request Token}
    {result : Option (Token × User)} (hrequest : s.requests[id]? = some request)
    (hphase : request.phase = .awaiting) (hjoined : request.joined = some refresh)
    (hover : s.refreshInFlight.calls[refresh]? = some (.over result)) :
    s.step (.resume id) = some (s.afterRefresh id request result) := by
  simp [step, hrequest, hphase, hjoined, hover]

/-- A waiter that goes on is sent again or rejected; the other requests and the refreshes are as
they were. -/
theorem afterRefresh_spec {s : ClientState Token User} {id : ℕ} {request : Request Token}
    (result : Option (Token × User)) (hid : id < s.requests.length)
    (hresends : request.resends = 0) :
    let s' := s.afterRefresh id request result
    (∃ request', s'.requests[id]? = some request' ∧ Request.Resumed result request') ∧
      (∀ other, other ≠ id → s'.requests[other]? = s.requests[other]?) ∧
      s'.refreshInFlight = s.refreshInFlight ∧
      (result = none → s'.store = AuthStore.clearAuth) := by
  cases result with
  | none =>
    refine ⟨⟨_, List.getElem?_set_self hid, rfl, hresends⟩, fun other hne => ?_, rfl,
      fun _ => rfl⟩
    exact List.getElem?_set_ne hne.symm
  | some session =>
    refine ⟨⟨_, List.getElem?_set_self hid, rfl, by simp [hresends]⟩, fun other hne => ?_, rfl,
      nofun⟩
    exact List.getElem?_set_ne hne.symm

/-- The waiters of a refresh that is over go on one after the other. -/
theorem exec_resume {refresh : ℕ} {result : Option (Token × User)} {order : List ℕ}
    (hnodup : order.Nodup) {s : ClientState Token User} (hs : s.Consistent)
    (hover : s.refreshInFlight.calls[refresh]? = some (.over result))
    (hwaiting : ∀ id ∈ order, s.Waiting refresh id) :
    ∃ s', Runs.exec step s (order.map .resume) = some s' ∧
      (∀ id ∈ order, ∃ request, s'.requests[id]? = some request ∧
        Request.Resumed result request) ∧
      (∀ id, id ∉ order → s'.requests[id]? = s.requests[id]?) ∧
      (result = none → s.store = AuthStore.clearAuth ∨ order ≠ [] →
        s'.store = AuthStore.clearAuth) := by
  induction order generalizing s with
  | nil => exact ⟨s, rfl, by simp, fun _ _ => rfl, fun _ h => h.resolve_right (by simp)⟩
  | cons id order ih =>
    obtain ⟨hfresh, hnodup⟩ := List.nodup_cons.mp hnodup
    obtain ⟨request, hrequest, hphase, hjoined⟩ := hwaiting id List.mem_cons_self
    obtain ⟨hafter, hresends⟩ := consistent_afterRefresh hs hrequest hphase hjoined hover
    have hstep := step_resume hrequest hphase hjoined hover
    obtain ⟨⟨request', hrequest', hresumed⟩, hothers, hflights, hstore⟩ :=
      afterRefresh_spec result (List.getElem?_eq_some_iff.mp hrequest).1 hresends
    -- the other waiters find the refresh and their own requests as they were
    have hwaiting' : ∀ other ∈ order, (s.afterRefresh id request result).Waiting refresh other :=
      fun other hother => by
        obtain ⟨waiter, hwaiter, hrest⟩ := hwaiting other (List.mem_cons_of_mem id hother)
        have hne : other ≠ id := fun heq => hfresh (heq ▸ hother)
        exact ⟨waiter, (hothers other hne).trans hwaiter, hrest⟩
    obtain ⟨s', hexec, hall, hframe, hcleared⟩ := ih hnodup hafter (hflights ▸ hover) hwaiting'
    refine ⟨s', ?_, ?_, ?_, ?_⟩
    · rw [List.map_cons, Runs.exec, List.foldlM_cons, hstep]
      exact hexec
    · intro other hother
      rcases List.mem_cons.mp hother with rfl | hmem
      · exact ⟨request', (hframe other hfresh).trans hrequest', hresumed⟩
      · exact hall other hmem
    · intro other hother
      obtain ⟨hne, hnotin⟩ := not_or.mp (mt List.mem_cons.mpr hother)
      exact (hframe other hnotin).trans (hothers other hne)
    · exact fun hnone _ => hcleared hnone (Or.inl (hstore hnone))

/-! ### Every run -/

/-- A consistent client makes one refresh for all its waiters. -/
theorem singleFlightRefresh_of_consistent {s : ClientState Token User} (h : s.Consistent) :
    s.SingleFlightRefresh where
  outstanding j k := Flights.eq_of_running
  resends request hrequest := by
    have hold := h request hrequest
    unfold Request.Consistent at hold
    split at hold
    · omega
    · omega
  joins refresh id request message hrunning hrequest hphase hretried hauth := by
    have hcurrent := (s.refreshInFlight.current_iff refresh).mpr ⟨_, hrunning, trivial⟩
    simp [step, hrequest, hphase, responseInterceptor, hretried, hauth,
      Flights.join_of_current hcurrent]
  waits request hrequest refresh hjoined hrunning := by
    have hold := h request hrequest
    unfold Request.Consistent at hold
    simp only [hjoined] at hold
    -- a request that was resent or rejected has joined a refresh that is over
    obtain ⟨-, hwaits | ⟨-, -, session, hover⟩ | ⟨-, -, hover⟩⟩ := hold
    · exact hwaits
    · exact absurd hover (hrunning _)
    · exact absurd hover (hrunning _)
  outcome request hrequest refresh result hjoined hover := by
    have hold := h request hrequest
    unfold Request.Consistent at hold
    simp only [hjoined, hover] at hold
    -- it still waits, or went on with the outcome of the refresh
    obtain ⟨-, hwaits | ⟨-, hresends, session, hsession⟩ | ⟨hphase, hresends, hfailed⟩⟩ := hold
    · exact Or.inl hwaits
    · cases hsession
      exact Or.inr ⟨hresends, nofun⟩
    · cases hfailed
      exact Or.inr ⟨hresends, fun _ => hphase⟩
  drains refresh result order hover hnodup hwaiting := by
    obtain ⟨s', hexec, hall, -, hcleared⟩ := exec_resume hnodup h hover hwaiting
    exact ⟨s', hexec, hall, fun hnone hne => hcleared hnone (Or.inr hne)⟩

/-- However many requests there are, and in whatever order they and the refreshes are answered: at
any time at most one refresh is outstanding, and every request that was answered with 401 shares
the fate of the refresh it has joined. -/
theorem silentRefresh_singleFlight (store : AuthStore Token User) (pathname : String)
    (events : List (ClientEvent Token User)) (s : ClientState Token User)
    (h : Runs.exec step (init store pathname) events = some s) : s.SingleFlightRefresh := by
  refine singleFlightRefresh_of_consistent ?_
  refine Runs.exec_invariant (A := fun _ => True) (J := Consistent)
    (fun _ _ _ _ hs hstep => consistent_step hs hstep) ?_ (fun _ _ => trivial) h
  exact fun request hrequest => absurd hrequest List.not_mem_nil

/-- Two requests that are answered with 401 one after the other, and a refresh that fails. -/
def failedRefresh : List (ClientEvent ℕ String) :=
  [.send false, .send false, .respond 0 (.status 401 ""), .respond 1 (.status 401 ""),
    .refreshResponse 0 .failed, .refreshFinally 0, .resume 1, .resume 0]

/-- Two requests wait for one refresh, and it fails. -/
theorem silentRefresh_singleFlight_failedRefresh :
    ∃ s, Runs.exec step (init (AuthStore.setAuth 7 "demo") "/") failedRefresh = some s ∧
      s.requests.map Request.phase = [.rejected sessionExpired, .rejected sessionExpired] ∧
      s.SingleFlightRefresh :=
  ⟨_, rfl, by decide, silentRefresh_singleFlight _ _ failedRefresh _ rfl⟩

end ClientState

end Invariant

end TradingSimulator.ApiClient
