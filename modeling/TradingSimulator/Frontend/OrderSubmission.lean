import TradingSimulator.Api.AuthRoutes
import TradingSimulator.Api.Routes
import TradingSimulator.Auth.Revocation
import TradingSimulator.Frontend.ApiClient

/-!
# Order submissions

`executeTrade` (`frontend/src/services/tradeService.js`) through the API client and the network to
the route `POST /trades` (`app/api/routes.py`). The client sends a request once more after it was
answered with 401, the network may lose a request or its answer, and the server may come to a
request after the client has given it up. The other requests of the page share the refresh with the
orders.

`executed_at_most_once` says what the client may rely on: no submission is executed twice, and what
it is told about one is true and stays true. Only an answer with the status 500 leaves open whether
the order was executed. An order is executed when a row of an account is committed for it, and the
accounts gain these rows only (`Inv.booked`).
-/

namespace TradingSimulator

open ApiClient

namespace OrderSubmission

/-! ### The server -/

/-- What the route reads and writes: the users, and the account of every user id. -/
structure OrderServer where
  users : List User
  accounts : ℕ → Account ℚ

/-- An exception that leaves the route, apart from those of `execute_trade` itself: before the trade
is committed, or when the row of the committed trade is read again. -/
inductive HandlerFault where
  | beforeCommit
  | afterCommit
  deriving DecidableEq

/-- What a request meets when it is handled. -/
structure Handling where
  /-- The time at which the token is checked, in seconds. -/
  now : ℚ
  /-- The quotes that the route, the engine and the snapshot read. -/
  market : MarketState ℚ
  executed : MarketState ℚ
  marked : MarketState ℚ
  /-- The time of the snapshot in microseconds. -/
  clock : ℤ
  stamp : RowStamp
  fault : Option HandlerFault

/-- What is answered to an order. -/
inductive OrderAnswer where
  | filled (trade : Trade ℚ)
  | refused (error : HttpError)
  deriving DecidableEq

/-- The answer as the API client sees it. -/
def OrderAnswer.response : OrderAnswer → Response
  | .filled _ => .ok
  | .refused error => .status error.statusCode error.detail

/-- `unhandled_exception_handler`. -/
def internalServerError : HttpError where
  statusCode := 500
  detail := "Internal server error"

section Server

variable {Token : Type} (libs : AuthLibs Token) (settings : Settings) (upper : String → String)

/-- `POST /trades` with the bearer token of the request: the answer, the trade that was committed
and the state of the server. -/
def handleOrder (server : OrderServer) (authorization : Option Token)
    (order : ExecuteTradeRequest ℚ) (handling : Handling) :
    OrderAnswer × Option (Trade ℚ) × OrderServer :=
  match getCurrentUser libs settings server.users authorization handling.now with
  | .error error => (.refused error, none, server)
  | .ok user =>
    if handling.fault = some .beforeCommit then (.refused internalServerError, none, server)
    else
      let account := server.accounts user.id
      match tradeMoving upper account ⟨handling.market, handling.clock, order, handling.stamp⟩
          handling.executed handling.marked with
      | (.ok (.success trade _ _), recorded) =>
        -- without the row of the trade neither the snapshot is taken nor the order answered
        if handling.fault = some .afterCommit then
          (.refused internalServerError, some trade,
            { server with
              accounts := Function.update server.accounts user.id
                { recorded with equityHistory := account.equityHistory } })
        else
          (.filled trade, some trade,
            { server with accounts := Function.update server.accounts user.id recorded })
      | (.ok (.failure error), _) => (.refused ⟨400, error⟩, none, server)
      | (.error error, _) => (.refused error, none, server)

end Server

/-! ### A tab and the server -/

/-- How far a request is on its way to the server and back. -/
inductive SendingPhase where
  | underway
  | handled (answer : OrderAnswer)
  | delivered (answer : OrderAnswer)
  deriving DecidableEq

/-- A request that was sent, with its bearer token. -/
structure Sending (Token : Type) where
  authorization : Option Token
  phase : SendingPhase

/-- An order that `executeTrade` was called with: the requests that were sent for it, and the trades
that the server has committed for them. -/
structure Submission (Token : Type) where
  order : ExecuteTradeRequest ℚ
  latest : Sending Token
  earlier : List (Sending Token)
  executed : List (Trade ℚ)

/-- A tab with its API client, and the server. A submission has the number of its request. -/
structure Desk (Token : Type) where
  client : ClientState Token UserPublic
  submissions : ℕ → Option (Submission Token)
  server : OrderServer

inductive DeskEvent (Token : Type) where
  /-- `executeTrade`. -/
  | submit (order : ExecuteTradeRequest ℚ)
  /-- The server handles the request that was sent last for a submission. -/
  | handle (id : ℕ) (handling : Handling)
  /-- Its answer arrives. -/
  | deliver (id : ℕ)
  /-- The connection breaks or the time limit of the client passes, wherever the request is. -/
  | cutOff (id : ℕ)
  /-- A submission that awaits a refresh goes on. -/
  | resume (id : ℕ)
  /-- Whatever else happens to the client: its other requests and the refreshes. -/
  | client (event : ClientEvent Token UserPublic)
  /-- Everybody else. -/
  | elsewhere (server : OrderServer)

/-- The request that an event is about. -/
def target {Token User : Type} : ClientEvent Token User → Option ℕ
  | .respond id _ => some id
  | .resume id => some id
  | _ => none

/-- The next phase of the request that was sent last. -/
def Submission.setPhase {Token : Type} (submission : Submission Token) (phase : SendingPhase) :
    Submission Token :=
  { submission with latest := { submission.latest with phase } }

/-- The request is sent once more. -/
def Submission.sendAgain {Token : Type} (submission : Submission Token)
    (authorization : Option Token) : Submission Token :=
  { submission with
    latest := ⟨authorization, .underway⟩
    earlier := submission.latest :: submission.earlier }

namespace Desk

variable {Token : Type}

/-- A submission at another point. -/
def setSubmission (s : Desk Token) (id : ℕ) (submission : Submission Token) : Desk Token :=
  { s with submissions := Function.update s.submissions id (some submission) }

/-- The page has been loaded. -/
def init (store : AuthStore Token UserPublic) (pathname : String) (server : OrderServer) :
    Desk Token where
  client := .init store pathname
  submissions _ := none
  server := server

variable (libs : AuthLibs Token) (settings : Settings) (upper : String → String)

/-- The state after an event, `none` when the event cannot occur. -/
def step (s : Desk Token) : DeskEvent Token → Option (Desk Token)
  | .submit order =>
    (s.client.step (.send false)).map fun client =>
      { s with client }.setSubmission s.client.requests.length
        { order
          latest := ⟨s.client.store.accessToken, .underway⟩
          earlier := []
          executed := [] }
  | .handle id handling =>
    match s.submissions id with
    | none => none
    | some submission =>
      if submission.latest.phase = .underway then
        let (answer, trade, server) := handleOrder libs settings upper s.server
          submission.latest.authorization submission.order handling
        some ({ s with server }.setSubmission id
          { submission.setPhase (.handled answer) with
            executed := submission.executed ++ trade.toList })
      else none
  | .deliver id =>
    match s.submissions id with
    | none => none
    | some submission =>
      match submission.latest.phase with
      | .handled answer =>
        (s.client.step (.respond id answer.response)).map fun client =>
          { s with client }.setSubmission id (submission.setPhase (.delivered answer))
      | _ => none
  | .cutOff id =>
    if (s.submissions id).isSome then
      (s.client.step (.respond id .network)).map fun client => { s with client }
    else none
  | .resume id =>
    match s.submissions id with
    | none => none
    | some submission =>
      (s.client.step (.resume id)).map fun (client : ClientState Token UserPublic) =>
        -- after a refresh that has failed nothing is sent
        match client.requests[id]? with
        | some ⟨config, .inFlight, _, _⟩ =>
          { s with client }.setSubmission id (submission.sendAgain config.authorization)
        | _ => { s with client }
  | .client event =>
    if ((target event).bind s.submissions).isSome then none
    else (s.client.step event).map fun client => { s with client }
  | .elsewhere server => some { s with server }

end Desk

/-! ### What an event does to the requests of the client -/

section Client

variable {Token User : Type} {s s' : ClientState Token User} {id : ℕ}

/-- What an answer makes of a request: a 401 lets it wait for a refresh, or refuses it. -/
def Answered : Response → RequestPhase → Prop
  | .ok, phase => phase = .resolved
  | .network, phase => phase = .rejected networkError
  | .status code message, phase =>
    code = 401 ∧ phase = .awaiting ∨ phase = .rejected ⟨message, some code, .api⟩

/-- An answer moves a request that is in flight, and no other. -/
theorem step_respond_spec {response : Response} (h : s.step (.respond id response) = some s') :
    ∃ request request' : Request Token, s.requests[id]? = some request ∧
      request.phase = .inFlight ∧ s'.requests = s.requests.set id request' ∧
      Answered response request'.phase := by
  simp only [ClientState.step] at h
  split at h
  · cases h
  · next request hrequest =>
    split_ifs at h with hphase
    obtain rfl := Option.some.inj h
    cases response with
    | ok => exact ⟨request, _, hrequest, hphase, rfl, rfl⟩
    | network => exact ⟨request, _, hrequest, hphase, rfl, rfl⟩
    | status code message =>
      -- a 401 leads to a refresh, unless the request was sent again already
      simp only [ClientState.responseInterceptor]
      split_ifs with hrefresh
      · exact ⟨request, _, hrequest, hphase, rfl, .inl ⟨hrefresh.1, rfl⟩⟩
      · exact ⟨request, _, hrequest, hphase, rfl, .inr rfl⟩

/-- A request that awaits a refresh is sent again, or given up with it. -/
theorem step_resume_spec (h : s.step (.resume id) = some s') :
    ∃ request request' : Request Token, s.requests[id]? = some request ∧
      request.phase = .awaiting ∧ s'.requests = s.requests.set id request' ∧
      (request'.phase = .inFlight ∨ request'.phase = .rejected sessionExpired) := by
  simp only [ClientState.step] at h
  split at h
  · cases h
  · next request hrequest =>
    split_ifs at h with hphase
    split at h
    · next result _ =>
      obtain rfl := Option.some.inj h
      cases result with
      | none => exact ⟨request, _, hrequest, hphase, rfl, .inr rfl⟩
      | some session => exact ⟨request, _, hrequest, hphase, rfl, .inl rfl⟩
    · cases h

/-- An event leaves the requests that it is not about alone. -/
theorem getElem?_requests_step {event : ClientEvent Token User} (h : s.step event = some s')
    (hid : target event ≠ some id) {request : Request Token}
    (hrequest : s.requests[id]? = some request) : s'.requests[id]? = some request := by
  cases event with
  | send isAuthEndpoint =>
    -- a new request is appended
    cases h
    rw [List.getElem?_append_left (List.getElem?_eq_some_iff.mp hrequest).1]
    exact hrequest
  | writeStore store =>
    cases h
    exact hrequest
  | respond other response =>
    obtain ⟨_, _, _, _, hrequests, _⟩ := step_respond_spec h
    rw [hrequests, List.getElem?_set_ne fun heq => hid (congrArg some heq)]
    exact hrequest
  | refreshResponse refresh response =>
    obtain ⟨flights, _, rfl⟩ := Option.map_eq_some_iff.mp h
    -- the refresh may clear the store, and touches no request
    split <;> exact hrequest
  | refreshFinally refresh =>
    obtain ⟨flights, _, rfl⟩ := Option.map_eq_some_iff.mp h
    exact hrequest
  | resume other =>
    obtain ⟨_, _, _, _, hrequests, _⟩ := step_resume_spec h
    rw [hrequests, List.getElem?_set_ne fun heq => hid (congrArg some heq)]
    exact hrequest

/-- An event that is about one request leaves all others alone. -/
theorem getElem?_requests_others {event : ClientEvent Token User} (h : s.step event = some s')
    (id : ℕ) (hid : ∀ about ∈ target event, about = id) (other : ℕ) (request : Request Token)
    (hother : other ≠ id) (hrequest : s.requests[other]? = some request) :
    s'.requests[other]? = some request :=
  getElem?_requests_step h (fun htarget => hother (hid other htarget)) hrequest

end Client

/-! ### The invariant -/

/-- The trades behind an answer. -/
def Explains : OrderAnswer → List (Trade ℚ) → Prop
  | .filled trade, executed => executed = [trade]
  | .refused error, executed => executed = [] ∨ error.statusCode = 500 ∧ ∃ trade, executed = [trade]

/-- An answer explains one trade at most. -/
theorem Explains.length_le_one {answer : OrderAnswer} {executed : List (Trade ℚ)}
    (h : Explains answer executed) : executed.length ≤ 1 := by
  cases answer with
  | filled trade => simp [show executed = [trade] from h]
  | refused error =>
    obtain rfl | ⟨-, trade, rfl⟩ := h
    · simp
    · simp

/-- A route that answers an order has committed what it says. -/
theorem explains_handleOrder {Token : Type} (libs : AuthLibs Token) (settings : Settings)
    (upper : String → String) (server : OrderServer) (authorization : Option Token)
    (order : ExecuteTradeRequest ℚ) (handling : Handling) :
    Explains (handleOrder libs settings upper server authorization order handling).1
      (handleOrder libs settings upper server authorization order handling).2.1.toList := by
  unfold handleOrder
  split
  · exact .inl rfl
  · by_cases hbefore : handling.fault = some .beforeCommit
    · rw [if_pos hbefore]
      exact .inl rfl
    rw [if_neg hbefore]
    dsimp only
    split
    · by_cases hafter : handling.fault = some .afterCommit
      · rw [if_pos hafter]
        exact .inr ⟨rfl, _, rfl⟩
      · rw [if_neg hafter]
        rfl
    · exact .inl rfl
    · exact .inl rfl

/-- The trade that is committed becomes a row of one account, and no account gets another row. -/
theorem exists_trades_handleOrder {Token : Type} (libs : AuthLibs Token) (settings : Settings)
    (upper : String → String) (server : OrderServer) (authorization : Option Token)
    (order : ExecuteTradeRequest ℚ) (handling : Handling) :
    ∃ user, ∀ other,
      ((handleOrder libs settings upper server authorization order handling).2.2.accounts
          other).trades =
        (server.accounts other).trades ++ if other = user then
          (handleOrder libs settings upper server authorization order handling).2.1.toList
        else [] := by
  unfold handleOrder
  split
  · -- who is not identified gains nothing
    exact ⟨0, by simp⟩
  · next user huser =>
    refine ⟨user.id, fun other => ?_⟩
    -- an exception before the commit takes the trade back, one behind it does not
    by_cases hbefore : handling.fault = some .beforeCommit
    · simp [hbefore]
    rw [if_neg hbefore]
    dsimp only
    split
    · next trade _ _ recorded htrade =>
      have htrades := trades_of_tradeMoving htrade
      by_cases hother : other = user.id
      · subst hother
        by_cases hafter : handling.fault = some .afterCommit
        · simp [hafter, htrades]
        · simp [hafter, htrades]
      · by_cases hafter : handling.fault = some .afterCommit
        · simp [hafter, hother]
        · simp [hafter, hother]
    · simp
    · simp

namespace Submission

variable {Token : Type}

/-- The client has no answer yet. -/
def Open (submission : Submission Token) : Prop :=
  match submission.latest.phase with
  | .underway => submission.executed = []
  | .handled answer => Explains answer submission.executed
  | .delivered _ => False

/-- The client has the answer. -/
def Closed (submission : Submission Token) (answer : OrderAnswer) : Prop :=
  submission.latest.phase = .delivered answer ∧ Explains answer submission.executed

/-- How far a submission is when its request is in a phase. -/
def Follows (submission : Submission Token) : RequestPhase → Prop
  | .inFlight => submission.Open
  | .awaiting => ∃ detail, submission.Closed (.refused ⟨401, detail⟩)
  | .resolved => ∃ trade, submission.Closed (.filled trade)
  | .rejected rejection =>
    rejection = networkError ∧ submission.Open ∨
      (∃ detail, rejection = sessionExpired ∧ submission.Closed (.refused ⟨401, detail⟩)) ∨
      ∃ error, rejection = ⟨error.detail, some error.statusCode, .api⟩ ∧
        submission.Closed (.refused error)

/-- An open submission is executed once at most. -/
theorem Open.length_le_one {submission : Submission Token} (h : submission.Open) :
    submission.executed.length ≤ 1 := by
  unfold Open at h
  split at h
  · simp [h]
  · exact Explains.length_le_one h
  · exact h.elim

/-- An order that was refused for its token was not executed. -/
theorem Closed.executed_eq_nil {submission : Submission Token} {error : HttpError}
    (h : submission.Closed (.refused error)) (hstatus : error.statusCode ≠ 500) :
    submission.executed = [] :=
  h.2.resolve_right fun hcommitted => hstatus hcommitted.1

section Steps

variable {submission : Submission Token} {phase : RequestPhase} {answer : OrderAnswer}

/-- A request that was answered follows its answer. -/
theorem Closed.follows (h : submission.Closed answer) (hphase : Answered answer.response phase) :
    submission.Follows phase := by
  cases answer with
  | filled trade =>
    obtain rfl : phase = .resolved := hphase
    exact ⟨trade, h⟩
  | refused error =>
    obtain ⟨statusCode, detail⟩ := error
    rcases hphase with ⟨hstatus, rfl⟩ | rfl
    · obtain rfl : statusCode = 401 := hstatus
      exact ⟨detail, h⟩
    · exact .inr (.inr ⟨_, rfl, h⟩)

/-- Only a submission without an answer has a request underway. -/
theorem Follows.open_of_underway (h : submission.Follows phase)
    (hunderway : submission.latest.phase = .underway) :
    submission.Open ∧ (phase = .inFlight ∨ phase = .rejected networkError) := by
  have hclosed : ∀ answer, ¬ submission.Closed answer := by
    intro answer hanswer
    exact absurd (hunderway.symm.trans hanswer.1) (by simp)
  cases phase with
  | inFlight => exact ⟨h, .inl rfl⟩
  | awaiting => exact absurd h.choose_spec (hclosed _)
  | resolved => exact absurd h.choose_spec (hclosed _)
  | rejected rejection =>
    rcases h with ⟨rfl, hopen⟩ | ⟨detail, -, hanswer⟩ | ⟨error, -, hanswer⟩
    · exact ⟨hopen, .inr rfl⟩
    · exact absurd hanswer (hclosed _)
    · exact absurd hanswer (hclosed _)

/-- The server handles a request, whether the client still waits for it or not. -/
theorem Follows.handle (h : submission.Follows phase)
    (hunderway : submission.latest.phase = .underway) {trade : Option (Trade ℚ)}
    (hanswer : Explains answer trade.toList) :
    Follows
      { submission.setPhase (.handled answer) with
        executed := submission.executed ++ trade.toList } phase := by
  obtain ⟨hopen, hphase⟩ := h.open_of_underway hunderway
  have hnone : submission.executed = [] := by simpa [Open, hunderway] using hopen
  have hhandled : Open
      { submission.setPhase (.handled answer) with
        executed := submission.executed ++ trade.toList } := by
    simpa [Open, setPhase, hnone] using hanswer
  rcases hphase with rfl | rfl
  · exact hhandled
  · exact .inl ⟨rfl, hhandled⟩

/-- What is sent once more was not executed before. -/
theorem Follows.sendAgain (h : submission.Follows .awaiting) (authorization : Option Token) :
    (submission.sendAgain authorization).Follows .inFlight := by
  obtain ⟨detail, hclosed⟩ := h
  exact hclosed.executed_eq_nil (by simp)

end Steps

end Submission

namespace Desk

variable {Token : Type} {s s' : Desk Token}

/-- Every submission has a request, and is as far as it. -/
def Inv (s : Desk Token) : Prop :=
  ∀ id submission, s.submissions id = some submission →
    ∃ request : Request Token, s.client.requests[id]? = some request ∧
      submission.Follows request.phase

/-- An event that is about one submission at most keeps the others. -/
theorem Inv.setSubmission (h : s.Inv) {client : ClientState Token UserPublic} {id : ℕ}
    (hothers : ∀ other request, other ≠ id → s.client.requests[other]? = some request →
      client.requests[other]? = some request)
    {request : Request Token} (hrequest : client.requests[id]? = some request)
    {submission : Submission Token} (hfollows : submission.Follows request.phase)
    (server : OrderServer) :
    (Desk.setSubmission { s with client, server } id submission).Inv := by
  intro other found hfound
  by_cases hother : other = id
  · subst hother
    obtain rfl : submission = found := by
      simpa [Desk.setSubmission] using hfound
    exact ⟨request, hrequest, hfollows⟩
  · have hold : s.submissions other = some found := by
      simpa [Desk.setSubmission, hother] using hfound
    obtain ⟨request', hrequest', hfollows'⟩ := h other found hold
    exact ⟨request', hothers other request' hother hrequest', hfollows'⟩

/-- The request of a submission goes on, without the submission. -/
theorem Inv.advance (h : s.Inv) {client : ClientState Token UserPublic} {id : ℕ}
    {submission : Submission Token} (hsubmission : s.submissions id = some submission)
    (hothers : ∀ other request, other ≠ id → s.client.requests[other]? = some request →
      client.requests[other]? = some request)
    {request : Request Token} (hrequest : client.requests[id]? = some request)
    (hfollows : submission.Follows request.phase) : Desk.Inv { s with client } := by
  have hset := h.setSubmission hothers hrequest hfollows s.server
  rwa [Desk.setSubmission, ← hsubmission, Function.update_eq_self] at hset

/-- Every event keeps the submissions as far as their requests. -/
theorem Inv.step {libs : AuthLibs Token} {settings : Settings} {upper : String → String}
    (h : s.Inv) {event : DeskEvent Token} (hstep : s.step libs settings upper event = some s') :
    s'.Inv := by
  cases event with
  | submit order =>
    rw [Desk.step] at hstep
    obtain ⟨client, hclient, rfl⟩ := Option.map_eq_some_iff.mp hstep
    have hothers := getElem?_requests_others hclient s.client.requests.length (by simp [target])
    obtain rfl := Option.some.inj hclient
    refine h.setSubmission hothers List.getElem?_concat_length ?_ s.server
    -- nothing is executed yet
    exact Eq.refl ([] : List (Trade ℚ))
  | handle id handling =>
    simp only [Desk.step] at hstep
    split at hstep
    · cases hstep
    next submission hsubmission =>
    split_ifs at hstep with hunderway
    obtain rfl := Option.some.inj hstep
    obtain ⟨request, hrequest, hfollows⟩ := h id submission hsubmission
    exact h.setSubmission (fun _ _ _ hother => hother) hrequest
      (hfollows.handle hunderway (explains_handleOrder _ _ _ _ _ _ _)) _
  | deliver id =>
    simp only [Desk.step] at hstep
    split at hstep
    · cases hstep
    next submission hsubmission =>
    split at hstep
    · next answer hhandled =>
      obtain ⟨client, hclient, rfl⟩ := Option.map_eq_some_iff.mp hstep
      obtain ⟨request, request', hrequest, hphase, hrequests, hanswered⟩ :=
        step_respond_spec hclient
      obtain ⟨found, hfound, hfollows⟩ := h id submission hsubmission
      obtain rfl := Option.some.inj (hrequest.symm.trans hfound)
      rw [hphase] at hfollows
      have hexplains : Explains answer submission.executed := by
        simpa [Submission.Follows, Submission.Open, hhandled] using hfollows
      have hclosed : (submission.setPhase (.delivered answer)).Closed answer := ⟨rfl, hexplains⟩
      refine h.setSubmission (getElem?_requests_others hclient id (by simp [target])) ?_
        (hclosed.follows hanswered) s.server
      rw [hrequests, List.getElem?_set_self (List.getElem?_eq_some_iff.mp hrequest).1]
    · cases hstep
  | cutOff id =>
    rw [Desk.step] at hstep
    split_ifs at hstep with hsome
    obtain ⟨client, hclient, rfl⟩ := Option.map_eq_some_iff.mp hstep
    obtain ⟨submission, hsubmission⟩ := Option.isSome_iff_exists.mp hsome
    obtain ⟨request, request', hrequest, hphase, hrequests, hanswered⟩ := step_respond_spec hclient
    obtain ⟨found, hfound, hfollows⟩ := h id submission hsubmission
    obtain rfl := Option.some.inj (hrequest.symm.trans hfound)
    rw [hphase] at hfollows
    have hrequest' : client.requests[id]? = some request' := by
      rw [hrequests, List.getElem?_set_self (List.getElem?_eq_some_iff.mp hrequest).1]
    have hothers := getElem?_requests_others hclient id (by simp [target])
    refine h.advance hsubmission hothers hrequest' ?_
    rw [show request'.phase = .rejected networkError from hanswered]
    exact .inl ⟨rfl, hfollows⟩
  | resume id =>
    simp only [Desk.step] at hstep
    split at hstep
    · cases hstep
    next submission hsubmission =>
    obtain ⟨client, hclient, hresumed⟩ := Option.map_eq_some_iff.mp hstep
    obtain ⟨request, request', hrequest, hphase, hrequests, hagain⟩ := step_resume_spec hclient
    obtain ⟨found, hfound, hfollows⟩ := h id submission hsubmission
    obtain rfl := Option.some.inj (hrequest.symm.trans hfound)
    rw [hphase] at hfollows
    have hrequest' : client.requests[id]? = some request' := by
      rw [hrequests, List.getElem?_set_self (List.getElem?_eq_some_iff.mp hrequest).1]
    have hothers := getElem?_requests_others hclient id (by simp [target])
    obtain ⟨config, phase, joined, resends⟩ := request'
    rw [hrequest'] at hresumed
    obtain rfl | rfl : phase = .inFlight ∨ phase = .rejected sessionExpired := hagain
    · obtain rfl := hresumed
      exact h.setSubmission hothers hrequest' (hfollows.sendAgain _) s.server
    · obtain rfl := hresumed
      refine h.advance hsubmission hothers hrequest' (.inr (.inl ?_))
      exact ⟨hfollows.choose, rfl, hfollows.choose_spec⟩
  | client event =>
    simp only [Desk.step] at hstep
    split_ifs at hstep with hsome
    obtain ⟨client, hclient, rfl⟩ := Option.map_eq_some_iff.mp hstep
    intro id submission hsubmission
    obtain ⟨request, hrequest, hfollows⟩ := h id submission hsubmission
    refine ⟨request, getElem?_requests_step hclient (fun htarget => hsome ?_) hrequest, hfollows⟩
    rw [htarget, Option.bind_some, hsubmission]
    rfl
  | elsewhere server =>
    obtain rfl := Option.some.inj hstep
    exact h

end Desk

/-! ### The rows of the accounts -/

namespace Desk

variable {Token : Type} {s s' : Desk Token}

/-- The trades that were committed for a submission. -/
def executed (s : Desk Token) (id : ℕ) : List (Trade ℚ) :=
  ((s.submissions id).map Submission.executed).getD []

/-- The rows by which the trades of one submission grow are the rows that one account gains, and
nothing else is gained. What everybody else does is not an event of the submissions. -/
def Booked (s s' : Desk Token) (event : DeskEvent Token) : Prop :=
  (∃ server, event = .elsewhere server ∧ s'.submissions = s.submissions) ∨
    ∃ (user id : ℕ) (new : List (Trade ℚ)),
      (∀ other, s'.executed other = s.executed other ++ if other = id then new else []) ∧
        ∀ other, (s'.server.accounts other).trades =
          (s.server.accounts other).trades ++ if other = user then new else []

/-- Nothing is gained. -/
theorem Booked.of_same {event : DeskEvent Token} (hexecuted : ∀ id, s'.executed id = s.executed id)
    (hserver : s'.server = s.server) : s.Booked s' event :=
  .inr ⟨0, 0, [], by simp [hexecuted], by simp [hserver]⟩

/-- A submission at another point has grown by what is new in it. -/
theorem executed_setSubmission {client : ClientState Token UserPublic} {server : OrderServer}
    {id : ℕ} {changed : Submission Token} {new : List (Trade ℚ)}
    (hgrown : changed.executed = s.executed id ++ new) (other : ℕ) :
    (setSubmission { s with client, server } id changed).executed other =
      s.executed other ++ if other = id then new else [] := by
  by_cases hother : other = id
  · subst hother
    simpa [setSubmission, executed] using hgrown
  · simp [setSubmission, executed, hother]

/-- A submission that only moves on has grown by nothing. -/
theorem Booked.of_moved {event : DeskEvent Token} {client : ClientState Token UserPublic} {id : ℕ}
    {changed : Submission Token} (hsame : changed.executed = s.executed id) :
    s.Booked (setSubmission { s with client } id changed) event := by
  refine .of_same (fun other => ?_) rfl
  have hexecuted : (setSubmission { s with client } id changed).executed other =
      s.executed other ++ if other = id then [] else [] :=
    executed_setSubmission (by simpa using hsame) other
  simpa using hexecuted

/-- Every event books what it executes. -/
theorem Inv.booked {libs : AuthLibs Token} {settings : Settings} {upper : String → String}
    (h : s.Inv) {event : DeskEvent Token} (hstep : s.step libs settings upper event = some s') :
    s.Booked s' event := by
  cases event with
  | submit order =>
    rw [Desk.step] at hstep
    obtain ⟨client, -, rfl⟩ := Option.map_eq_some_iff.mp hstep
    -- the number of a new request belongs to no submission yet
    have hfresh : s.submissions s.client.requests.length = none := by
      by_contra hsome
      obtain ⟨submission, hsubmission⟩ := Option.ne_none_iff_exists'.mp hsome
      obtain ⟨request, hrequest, -⟩ := h _ submission hsubmission
      simp at hrequest
    exact .of_moved (by simp [executed, hfresh])
  | handle id handling =>
    simp only [Desk.step] at hstep
    split at hstep
    · cases hstep
    next submission hsubmission =>
    split_ifs at hstep
    obtain rfl := Option.some.inj hstep
    -- the handler is the one event that commits
    obtain ⟨user, htrades⟩ := exists_trades_handleOrder libs settings upper s.server
      submission.latest.authorization submission.order handling
    exact .inr ⟨user, id, _,
      executed_setSubmission (by simp [executed, hsubmission]), htrades⟩
  | deliver id =>
    simp only [Desk.step] at hstep
    split at hstep
    · cases hstep
    next submission hsubmission =>
    split at hstep
    · -- the answer is handed on, the executed trades stay
      obtain ⟨client, -, rfl⟩ := Option.map_eq_some_iff.mp hstep
      exact .of_moved (by simp [executed, hsubmission, Submission.setPhase])
    · cases hstep
  | cutOff id =>
    rw [Desk.step] at hstep
    split_ifs at hstep
    obtain ⟨client, -, rfl⟩ := Option.map_eq_some_iff.mp hstep
    exact .of_same (fun _ => rfl) rfl
  | resume id =>
    simp only [Desk.step] at hstep
    split at hstep
    · cases hstep
    next submission hsubmission =>
    obtain ⟨client, -, hresumed⟩ := Option.map_eq_some_iff.mp hstep
    split at hresumed
    · -- the request is sent again, which executes nothing by itself
      obtain rfl := hresumed
      exact .of_moved (by simp [executed, hsubmission, Submission.sendAgain])
    · obtain rfl := hresumed
      exact .of_same (fun _ => rfl) rfl
  | client event =>
    simp only [Desk.step] at hstep
    split_ifs at hstep
    obtain ⟨client, -, rfl⟩ := Option.map_eq_some_iff.mp hstep
    exact .of_same (fun _ => rfl) rfl
  | elsewhere server =>
    obtain rfl := Option.some.inj hstep
    exact .inl ⟨server, rfl, rfl⟩

end Desk

/-! ### Every run -/

/-- The client knows what has become of the request. -/
def Told : RequestPhase → Prop
  | .resolved => True
  | .rejected rejection => rejection.kind ≠ .network
  | _ => False

namespace Submission

variable {Token : Type} {submission : Submission Token} {phase : RequestPhase}

/-- What the client may rely on when the request of a submission is in a phase. -/
structure AtMostOnce (submission : Submission Token) (phase : RequestPhase) : Prop where
  once : submission.executed.length ≤ 1
  /-- The order was executed, and the client has its trade. -/
  resolved : phase = .resolved → ∃ trade, submission.latest.phase = .delivered (.filled trade) ∧
    submission.executed = [trade]
  /-- An order that was refused was not executed. -/
  rejected : ∀ rejection, phase = .rejected rejection → rejection.kind ≠ .network →
    rejection.status ≠ some 500 → submission.executed = []

/-- The client was told by an answer that was delivered. -/
theorem Follows.closed_of_told (h : submission.Follows phase) (htold : Told phase) :
    ∃ answer, submission.Closed answer := by
  cases phase with
  | inFlight => exact htold.elim
  | awaiting => exact htold.elim
  | resolved => exact ⟨_, h.choose_spec⟩
  | rejected rejection =>
    rcases h with ⟨rfl, -⟩ | ⟨detail, -, hclosed⟩ | ⟨error, -, hclosed⟩
    · exact absurd rfl htold
    · exact ⟨_, hclosed⟩
    · exact ⟨_, hclosed⟩

/-- A submission that is as far as its request was executed once at most. -/
theorem Follows.atMostOnce (h : submission.Follows phase) : submission.AtMostOnce phase where
  once := by
    cases phase with
    | inFlight => exact Open.length_le_one h
    | awaiting => exact h.choose_spec.2.length_le_one
    | resolved => exact h.choose_spec.2.length_le_one
    | rejected rejection =>
      rcases h with ⟨-, hopen⟩ | ⟨detail, -, hclosed⟩ | ⟨error, -, hclosed⟩
      · exact hopen.length_le_one
      · exact hclosed.2.length_le_one
      · exact hclosed.2.length_le_one
  resolved := by
    rintro rfl
    exact h
  rejected := by
    rintro rejection rfl hkind hstatus
    rcases h with ⟨rfl, -⟩ | ⟨detail, -, hclosed⟩ | ⟨error, rfl, hclosed⟩
    · -- an expired session is excepted, as is the status 500
      exact absurd rfl hkind
    · exact hclosed.executed_eq_nil (by simp)
    · exact hclosed.executed_eq_nil fun heq => hstatus (congrArg some heq)

end Submission

/-- In every continuation a submission and its request stay as they are. -/
def Desk.Settled {Token : Type} (libs : AuthLibs Token) (settings : Settings)
    (upper : String → String) (s : Desk Token) (id : ℕ) : Prop :=
  ∀ later s', Runs.exec (Desk.step libs settings upper) s later = some s' →
    s'.submissions id = s.submissions id ∧ s'.client.requests[id]? = s.client.requests[id]?

section Runs

variable {Token : Type} {libs : AuthLibs Token} {settings : Settings} {upper : String → String}
  {s s' : Desk Token} {id : ℕ} {submission : Submission Token} {request : Request Token}

/-- Nothing happens to a submission any more once the client knows what has become of it. -/
theorem step_of_told (h : s.Inv) (hsubmission : s.submissions id = some submission)
    (hrequest : s.client.requests[id]? = some request) (htold : Told request.phase)
    {event : DeskEvent Token} (hstep : s.step libs settings upper event = some s') :
    s'.submissions id = some submission ∧ s'.client.requests[id]? = some request := by
  obtain ⟨found, hfound, hfollows⟩ := h id submission hsubmission
  obtain rfl := Option.some.inj (hrequest.symm.trans hfound)
  obtain ⟨answer, hdelivered, -⟩ := hfollows.closed_of_told htold
  -- no other submission is the one that was told about
  have hkept : ∀ {client server} {other : ℕ} {changed : Submission Token}, other ≠ id →
      (Desk.setSubmission { s with client, server } other changed).submissions id =
        some submission := by
    intro client server other changed hother
    exact (Function.update_of_ne hother.symm _ _).trans hsubmission
  cases event with
  | submit order =>
    rw [Desk.step] at hstep
    obtain ⟨client, hclient, rfl⟩ := Option.map_eq_some_iff.mp hstep
    have hlt := (List.getElem?_eq_some_iff.mp hrequest).1
    exact ⟨hkept hlt.ne', getElem?_requests_step hclient (by simp [target]) hrequest⟩
  | handle other handling =>
    simp only [Desk.step] at hstep
    split at hstep
    · cases hstep
    next changed hchanged =>
    split_ifs at hstep with hunderway
    obtain rfl := Option.some.inj hstep
    refine ⟨hkept ?_, hrequest⟩
    rintro rfl
    obtain rfl := Option.some.inj (hsubmission.symm.trans hchanged)
    exact absurd (hunderway.symm.trans hdelivered) (by simp)
  | deliver other =>
    simp only [Desk.step] at hstep
    split at hstep
    · cases hstep
    next changed hchanged =>
    split at hstep
    · next hhandled =>
      obtain ⟨client, hclient, rfl⟩ := Option.map_eq_some_iff.mp hstep
      have hother : other ≠ id := by
        rintro rfl
        obtain rfl := Option.some.inj (hsubmission.symm.trans hchanged)
        exact absurd (hhandled.symm.trans hdelivered) (by simp)
      exact ⟨hkept hother, getElem?_requests_step hclient (by simpa [target] using hother) hrequest⟩
    · cases hstep
  | cutOff other =>
    rw [Desk.step] at hstep
    split_ifs at hstep
    obtain ⟨client, hclient, rfl⟩ := Option.map_eq_some_iff.mp hstep
    refine ⟨hsubmission, getElem?_requests_step hclient ?_ hrequest⟩
    -- a request that was answered is not in flight
    intro htarget
    obtain rfl : other = id := Option.some.inj htarget
    obtain ⟨found, _, hfound, hphase, -⟩ := step_respond_spec hclient
    obtain rfl := Option.some.inj (hrequest.symm.trans hfound)
    rw [hphase] at htold
    exact htold
  | resume other =>
    simp only [Desk.step] at hstep
    split at hstep
    · cases hstep
    obtain ⟨client, hclient, hresumed⟩ := Option.map_eq_some_iff.mp hstep
    have hother : other ≠ id := by
      rintro rfl
      obtain ⟨found, _, hfound, hphase, -⟩ := step_resume_spec hclient
      obtain rfl := Option.some.inj (hrequest.symm.trans hfound)
      rw [hphase] at htold
      exact htold
    have hclient' := getElem?_requests_step hclient (by simpa [target] using hother) hrequest
    split at hresumed
    · obtain rfl := hresumed
      exact ⟨hkept hother, hclient'⟩
    · obtain rfl := hresumed
      exact ⟨hsubmission, hclient'⟩
  | client event =>
    simp only [Desk.step] at hstep
    split_ifs at hstep with hsome
    obtain ⟨client, hclient, rfl⟩ := Option.map_eq_some_iff.mp hstep
    refine ⟨hsubmission, getElem?_requests_step hclient (fun htarget => hsome ?_) hrequest⟩
    rw [htarget, Option.bind_some, hsubmission]
    rfl
  | elsewhere server =>
    obtain rfl := Option.some.inj hstep
    exact ⟨hsubmission, hrequest⟩

/-- However often requests expire and are sent again, and whatever is lost on the way: no
submission is executed twice; one that the client was told to be filled was executed with this
trade, and one that was refused was not executed, unless with the status 500. What the client was
told stays true. Executed is what the accounts gain, in every step of the run. -/
theorem executed_at_most_once {store : AuthStore Token UserPublic} {pathname : String}
    {server : OrderServer} {events : List (DeskEvent Token)}
    (h : Runs.exec (Desk.step libs settings upper) (Desk.init store pathname server) events =
      some s) (hsubmission : s.submissions id = some submission) :
    (∃ request : Request Token, s.client.requests[id]? = some request ∧
      submission.AtMostOnce request.phase ∧
      (Told request.phase → s.Settled libs settings upper id)) ∧
      ∀ event s', s.step libs settings upper event = some s' → s.Booked s' event := by
  have hinv : s.Inv := by
    refine Runs.exec_invariant (A := fun _ => True) (J := Desk.Inv)
      (fun _ _ _ _ hs hstep => hs.step hstep) ?_ (fun _ _ => trivial) h
    intro id submission hnone
    cases hnone
  obtain ⟨request, hrequest, hfollows⟩ := hinv id submission hsubmission
  refine ⟨⟨request, hrequest, hfollows.atMostOnce, fun htold later s' hlater => ?_⟩,
    fun event s' hstep => hinv.booked hstep⟩
  -- what the client was told is settled: neither part changes in any continuation
  have hstays := Runs.exec_invariant (A := fun _ => True)
    (J := fun s => s.Inv ∧ s.submissions id = some submission ∧
      s.client.requests[id]? = some request)
    (fun _ _ _ _ hs hstep => ⟨hs.1.step hstep, step_of_told hs.1 hs.2.1 hs.2.2 htold hstep⟩)
    ⟨hinv, hsubmission, hrequest⟩ (fun _ _ => trivial) hlater
  rw [hsubmission, hrequest]
  exact hstays.2

end Runs

/-- What the server meets at a time while a share of Apple is quoted at 100. -/
def quotedAt (now : ℚ) : Handling where
  now := now
  market := .ofQuotes [("AAPL", 100)]
  executed := .ofQuotes [("AAPL", 100)]
  marked := .ofQuotes [("AAPL", 100)]
  clock := 0
  stamp := ⟨1, 0⟩
  fault := none

/-- A user with two thousand dollars. -/
def oneUser : OrderServer where
  users := [⟨1, "alice", "hash", 2000⟩]
  accounts _ := .opened 2000

/-- An order is refused because its token has expired, and is sent again after a refresh. -/
def expiredToken : List (DeskEvent Claims) :=
  [.submit { symbol := "AAPL", action := "BUY", quantity := 3 },
   .handle 0 (quotedAt 1000),
   .deliver 0,
   .client (.refreshResponse 0
     (.data (some (accessClaims {} 1 "second" 1000)) (some ⟨1, "alice", 2000⟩))),
   .client (.refreshFinally 0),
   .resume 0,
   .handle 0 (quotedAt 1001),
   .deliver 0]

/-- The tab after the order. -/
def afterOrder : Option (Desk Claims) :=
  Runs.exec (Desk.step transparentLibs {} id)
    (Desk.init (AuthStore.setAuth (accessClaims {} 1 "first" 0) ⟨1, "alice", 2000⟩) "/trade"
      oneUser)
    expiredToken

/-- The order was sent twice and executed once. -/
theorem executed_at_most_once_expiredToken :
    ∃ s submission, afterOrder = some s ∧ s.submissions 0 = some submission ∧
      submission.earlier.length = 1 ∧ submission.executed.length = 1 ∧
      (∃ request : Request Claims, s.client.requests[0]? = some request ∧
        submission.AtMostOnce request.phase ∧
        (Told request.phase → s.Settled transparentLibs {} id 0)) ∧
      ∀ event s', s.step transparentLibs {} id event = some s' → s.Booked s' event := by
  have hrun : (afterOrder.bind fun s => (s.submissions 0).map fun submission =>
      (submission.earlier.length, submission.executed.length)) = some (1, 1) := by
    decide +kernel
  obtain ⟨s, hs, hsubmission⟩ := Option.bind_eq_some_iff.mp hrun
  obtain ⟨submission, hsome, hlengths⟩ := Option.map_eq_some_iff.mp hsubmission
  exact ⟨s, submission, hs, hsome, congrArg Prod.fst hlengths, congrArg Prod.snd hlengths,
    executed_at_most_once hs hsome⟩

end OrderSubmission

end TradingSimulator
