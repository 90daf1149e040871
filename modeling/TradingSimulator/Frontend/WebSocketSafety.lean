import TradingSimulator.Frontend.WebSocketEngine
import TradingSimulator.Library.Runs

/-!
# Which runs of the WebSocket engine are safe

A `close` event that arrives after `disconnect()` schedules a reconnect, and one that arrives after
the next `connect()` resets the flags of the new socket. `sound_of_everyStep` states that nothing
else can go wrong, `exists_unsound_of_not_inOrder` that each of these does.
-/

namespace TradingSimulator.WebSocketEngine.WsState

variable {α : Type}

/-- An `error` event finds a socket, and a `close` event is that of the engine's socket, or else the
engine's socket is not in use, and after a `disconnect()` no reconnect is scheduled. -/
def InOrder (s : WsState α) : WsEvent α → Prop
  | .error i => ¬ (s.sockets[i]? = none ∨ s.sockets[i]? = some .closed) → s.socket ≠ none
  | .close i code tokenValid => s.sockets[i]? = some .closing → s.socket ≠ some i →
      (∀ j, s.socket = some j → ¬ s.Live j) ∧
        (s.socket = none → s.connectCalled = false → ¬ s.Reconnects code tokenValid)
  | _ => True

/-- No call on null, and at most one socket that is connecting or open. -/
def Safe (s : WsState α) : Prop :=
  s.nullDereferenced = false ∧ ∀ i j, s.Live i → s.Live j → i = j

/-- What is claimed of a run: all its states are safe, and between `disconnect()` and the next
`connect()` no socket is created. -/
def Sound (events : List (WsEvent α)) : Prop :=
  Runs.Always step Safe init events ∧
    ∀ before after, before ++ .disconnect :: after <+: events →
      (∀ tokenValid, .connect tokenValid ∉ after) →
      ((before ++ .disconnect :: after).foldl step init).sockets.length =
        (before.foldl step init).sockets.length

/-! ### The invariant -/

/-- What holds as long as the events come in order. -/
structure Inv (s : WsState α) : Prop where
  live_socket : ∀ i, s.Live i → s.socket = some i
  live_busy : ∀ i, s.Live i → s.isConnected = true ∨ s.isConnecting = true
  connected_socket : s.isConnected = true → s.socket ≠ none
  timeouts_tracked : ∀ timeout ∈ s.timeouts, s.reconnectTimer = some timeout.id
  not_null : s.nullDereferenced = false

/-- The engine is at rest: nothing of it can create a socket. -/
structure Quiet (s : WsState α) : Prop where
  socket : s.socket = none
  isConnected : s.isConnected = false
  isConnecting : s.isConnecting = false
  timeouts : s.timeouts = []
  connectCalled : s.connectCalled = false

/-- The invariant does not see the messages. -/
theorem Inv.congr {s s' : WsState α} (h : Inv s) (hsame : Same s s') : Inv s' where
  live_socket i hi := by
    rw [hsame.socket]
    exact h.live_socket i (by rwa [Live, hsame.sockets] at hi)
  live_busy i hi := by
    rw [hsame.isConnected, hsame.isConnecting]
    exact h.live_busy i (by rwa [Live, hsame.sockets] at hi)
  connected_socket := by
    rw [hsame.isConnected, hsame.socket]
    exact h.connected_socket
  timeouts_tracked := by
    rw [hsame.timeouts, hsame.reconnectTimer]
    exact h.timeouts_tracked
  not_null := hsame.nullDereferenced.trans h.not_null

/-- Quietness does not depend on the flags and the messages. -/
theorem Quiet.congr {s s' : WsState α} (h : Quiet s) (hsame : Same s s') : Quiet s' where
  socket := hsame.socket.trans h.socket
  isConnected := hsame.isConnected.trans h.isConnected
  isConnecting := hsame.isConnecting.trans h.isConnecting
  timeouts := hsame.timeouts.trans h.timeouts
  connectCalled := hsame.connectCalled.trans h.connectCalled

/-- In a quiet state no socket is live. -/
theorem Inv.not_live_of_quiet {s : WsState α} (h : Inv s) (hquiet : Quiet s) (i : ℕ) :
    ¬ s.Live i := fun hi => by
  have hsocket := h.live_socket i hi
  rw [hquiet.socket] at hsocket
  cases hsocket

theorem Inv.safe {s : WsState α} (h : Inv s) : s.Safe :=
  ⟨h.not_null, fun i j hi hj =>
    Option.some.inj ((h.live_socket i hi).symm.trans (h.live_socket j hj))⟩

theorem inv_init : Inv (init : WsState α) where
  live_socket i hi := by simp [Live, init] at hi
  live_busy i hi := by simp [Live, init] at hi
  connected_socket := nofun
  timeouts_tracked := by simp [init]
  not_null := rfl

/-- A socket that is not in use any more. -/
theorem live_set {s s' : WsState α} {i j : ℕ} {state : ReadyState}
    (hstate : state ≠ .connecting ∧ state ≠ .opened) (hsockets : s'.sockets = s.sockets.set i state)
    (hj : s'.Live j) : s.Live j ∧ j ≠ i := by
  unfold Live at hj ⊢
  rw [hsockets] at hj
  rcases eq_or_ne i j with rfl | hne
  · rw [List.getElem?_set_self'] at hj
    cases hi : s.sockets[i]? with
    | none => simp [hi] at hj
    | some old => simp [hi, hstate.1, hstate.2] at hj
  · rw [List.getElem?_set_ne hne] at hj
    exact ⟨hj, hne.symm⟩

/-- `close()` takes the socket out of use. -/
theorem closeSocket_spec {s : WsState α} {i : ℕ} (hsocket : s.socket = some i) :
    (∀ j, s.closeSocket.Live j → s.Live j ∧ j ≠ i) ∧
      s.closeSocket = { s with sockets := s.closeSocket.sockets } ∧
      s.closeSocket.sockets.length = s.sockets.length := by
  unfold closeSocket
  split
  · next hnone => exact absurd (hnone.symm.trans hsocket) nofun
  · next k hk =>
    obtain rfl : k = i := Option.some.inj (hk.symm.trans hsocket)
    split_ifs with hlive
    · exact ⟨fun j => live_set (by decide) rfl, rfl, List.length_set⟩
    · refine ⟨fun j hj => ⟨hj, ?_⟩, rfl, rfl⟩
      rintro rfl
      exact hlive hj

/-- A connect keeps the invariant, also when it does nothing or has no token. -/
theorem inv_connect {s : WsState α} (h : Inv s) (tokenValid : Bool) :
    Inv (s.connect tokenValid) := by
  unfold connect
  split_ifs with hbusy hinvalid
  · exact h
  · exact h
  · -- no socket is in use, so the new one is the only one
    have hlive : ∀ i, WsState.Live { s with
        isConnecting := true
        socket := some s.sockets.length
        sockets := s.sockets ++ [.connecting] } i → i = s.sockets.length := by
      intro i hi
      by_contra hne
      refine hbusy (h.live_busy i ?_)
      unfold Live at hi ⊢
      rcases Nat.lt_or_gt_of_ne hne with hlt | hgt
      · rwa [List.getElem?_append_left hlt] at hi
      · rw [List.getElem?_eq_none (by simp only [List.length_append, List.length_singleton]; omega)]
          at hi
        simp at hi
    exact {
      live_socket := fun i hi => by rw [hlive i hi]
      live_busy := fun _ _ => Or.inr rfl
      connected_socket := fun _ => by simp
      timeouts_tracked := h.timeouts_tracked
      not_null := h.not_null }

/-- A disconnect leaves no socket, no timer and nothing that will reconnect. -/
theorem quiet_disconnect {s : WsState α} (h : Inv s) :
    Inv (s.step .disconnect) ∧ Quiet (s.step .disconnect) ∧
      (s.step .disconnect).sockets.length = s.sockets.length := by
  obtain ⟨htimeouts, hsocket, -, -, hsockets, hnull, -⟩ := cleanup_spec h.timeouts_tracked
  have hlive : ∀ i, s.cleanup.Live i → s.cleanup.socket = some i := fun i hi => by
    rw [hsocket]
    exact h.live_socket i (by rwa [Live, hsockets] at hi)
  simp only [step, disconnect]
  split_ifs with hsome
  · -- `close()` takes the only socket that can be live out of use
    obtain ⟨i, hi⟩ := Option.isSome_iff_exists.mp hsome
    obtain ⟨hclosed, hrest, hlength⟩ := closeSocket_spec hi
    have hnone : ∀ j, ¬ s.cleanup.closeSocket.Live j := fun j hj => by
      obtain ⟨hj, hne⟩ := hclosed j hj
      exact hne (Option.some.inj ((hlive j hj).symm.trans hi))
    have htimeouts' : s.cleanup.closeSocket.timeouts = [] := by rw [hrest]; exact htimeouts
    have hnull' : s.cleanup.closeSocket.nullDereferenced = false := by
      rw [hrest]
      exact hnull.trans h.not_null
    refine ⟨⟨fun j hj => absurd hj (hnone j), fun j hj => absurd hj (hnone j), nofun, ?_, hnull'⟩,
      ⟨rfl, rfl, rfl, htimeouts', rfl⟩, hlength.trans (congrArg _ hsockets)⟩
    simp [htimeouts']
  · -- without a socket none is live
    have hnone : ∀ j, ¬ s.cleanup.Live j := fun j hj => hsome (by rw [hlive j hj]; rfl)
    refine ⟨⟨fun j hj => absurd hj (hnone j), fun j hj => absurd hj (hnone j), nofun, ?_,
      hnull.trans h.not_null⟩, ⟨rfl, rfl, rfl, htimeouts, rfl⟩, congrArg _ hsockets⟩
    simp [htimeouts]

/-- A reconnect is scheduled only when there is neither a socket nor a timeout. -/
theorem inv_scheduleReconnect {s : WsState α} (h : Inv s) (hnone : ∀ i, ¬ s.Live i)
    (htimeouts : s.timeouts = []) : Inv s.scheduleReconnect := by
  unfold scheduleReconnect
  split_ifs
  · exact h
  · exact {
      live_socket := fun i hi => absurd hi (hnone i)
      live_busy := fun i hi => absurd hi (hnone i)
      connected_socket := h.connected_socket
      timeouts_tracked := by simp [htimeouts]
      not_null := h.not_null }

/-- A `close` event when no socket is in use. -/
theorem inv_onclose {s : WsState α} (hnone : ∀ i, ¬ s.Live i)
    (htracked : ∀ timeout ∈ s.timeouts, s.reconnectTimer = some timeout.id)
    (hnull : s.nullDereferenced = false) (code : ℕ) (tokenValid : Bool) :
    Inv (s.onclose code tokenValid) := by
  obtain ⟨htimeouts, -, hconnected, -, hsockets, hkept, -⟩ :=
    cleanup_spec (s := { s with isConnected := false, isConnecting := false }) htracked
  have hlive : ∀ i, ¬ { s with isConnected := false, isConnecting := false }.cleanup.Live i :=
    fun i hi => hnone i (by rwa [Live, hsockets] at hi)
  -- the flags and the timeout are gone before `onclose` looks at the code
  have hrest : Inv { s with isConnected := false, isConnecting := false }.cleanup := {
    live_socket := fun i hi => absurd hi (hlive i)
    live_busy := fun i hi => absurd hi (hlive i)
    connected_socket := fun h => absurd (hconnected.symm.trans h) (by simp)
    timeouts_tracked := by simp [htimeouts]
    not_null := hkept.trans hnull }
  unfold onclose
  dsimp only
  split_ifs
  · exact hrest
  · exact hrest
  · exact inv_scheduleReconnect hrest hlive htimeouts

/-- No socket is in use after a `close` event that is in order. -/
theorem not_live_of_inOrder {s : WsState α} (h : Inv s) {i code : ℕ} {tokenValid : Bool}
    (hclosing : s.sockets[i]? = some .closing) (horder : s.InOrder (.close i code tokenValid))
    (j : ℕ) : ¬ { s with sockets := s.sockets.set i .closed }.Live j := fun hj => by
  obtain ⟨hlive, hne⟩ := live_set (by decide) rfl hj
  have hsocket := h.live_socket j hlive
  by_cases hown : s.socket = some i
  · exact hne (Option.some.inj (hsocket.symm.trans hown))
  · exact (horder hclosing hown).1 j hsocket hlive

/-- The connection of a socket is established. -/
theorem inv_onopen {s : WsState α} (h : Inv s) {i : ℕ} (hi : s.sockets[i]? = some .connecting) :
    Inv ({ s with sockets := s.sockets.set i .opened }.onopen) := by
  have hsocket : s.socket ≠ none := by simp [h.live_socket i (Or.inl hi)]
  refine Inv.congr ?_ (same_onopen (s := { s with sockets := s.sockets.set i .opened }) hsocket)
  -- the socket was live while it was connecting
  have hlive : ∀ j, { s with sockets := s.sockets.set i .opened }.Live j → s.Live j := by
    intro j hj
    rcases eq_or_ne i j with rfl | hne
    · exact Or.inl hi
    · simpa only [Live, List.getElem?_set_ne hne] using hj
  exact {
    live_socket := fun j hj => h.live_socket j (hlive j hj)
    live_busy := fun _ _ => Or.inl rfl
    connected_socket := fun _ => hsocket
    timeouts_tracked := h.timeouts_tracked
    not_null := h.not_null }

/-- A socket that goes out of use. -/
theorem inv_set {s : WsState α} (h : Inv s) {i : ℕ} {state : ReadyState}
    (hstate : state ≠ .connecting ∧ state ≠ .opened) :
    Inv { s with sockets := s.sockets.set i state } where
  live_socket j hj := h.live_socket j (live_set hstate rfl hj).1
  live_busy j hj := h.live_busy j (live_set hstate rfl hj).1
  connected_socket := h.connected_socket
  timeouts_tracked := h.timeouts_tracked
  not_null := h.not_null

/-- One event that is in order. -/
theorem inv_step {s : WsState α} {event : WsEvent α} (h : Inv s) (horder : s.InOrder event) :
    Inv (s.step event) := by
  cases event with
  | connect tokenValid =>
    have hnext := inv_connect h tokenValid
    exact ⟨hnext.live_socket, hnext.live_busy, hnext.connected_socket, hnext.timeouts_tracked,
      hnext.not_null⟩
  | disconnect => exact (quiet_disconnect h).1
  | send data => exact h.congr (same_send h.connected_socket _)
  | timeout id tokenValid =>
    simp only [step]
    split_ifs
    · -- the timeout that fires is forgotten, and what is left is still tracked
      refine inv_connect ?_ tokenValid
      exact { h with
        timeouts_tracked := fun timeout hmem =>
          h.timeouts_tracked timeout (List.mem_of_mem_filter hmem) }
    · exact h
  -- a heartbeat sends, and sending changes no socket
  | interval id =>
    simp only [step]
    split_ifs
    · exact h.congr (same_send h.connected_socket _)
    · exact h
  | opened i =>
    simp only [step]
    split_ifs with hi
    · exact inv_onopen h hi
    · exact h
  | message i => exact h
  | error i =>
    simp only [step]
    split_ifs with hdone
    · exact h
    · -- in order, so that there is a socket; it need not be the one that failed
      obtain ⟨k, hk⟩ := Option.ne_none_iff_exists'.mp (horder hdone)
      obtain ⟨hclosed, hrest, -⟩ := closeSocket_spec hk
      rw [hrest]
      exact {
        live_socket := fun j hj => h.live_socket j (hclosed j hj).1
        live_busy := fun j hj => h.live_busy j (hclosed j hj).1
        connected_socket := h.connected_socket
        timeouts_tracked := h.timeouts_tracked
        not_null := h.not_null }
  | drop i =>
    simp only [step]
    split_ifs
    · exact inv_set h (by decide)
    · exact h
  | close i code tokenValid =>
    simp only [step]
    split_ifs with hclosing
    · exact inv_onclose (not_live_of_inOrder h hclosing horder) h.timeouts_tracked h.not_null code
        tokenValid
    · exact h

/-- A `close` event that schedules no reconnect. -/
theorem quiet_onclose {s : WsState α} {code : ℕ} {tokenValid : Bool}
    (htracked : ∀ timeout ∈ s.timeouts, s.reconnectTimer = some timeout.id)
    (hsocket : s.socket = none) (hcalled : s.connectCalled = false)
    (hkept : ¬ s.Reconnects code tokenValid) :
    Quiet (s.onclose code tokenValid) ∧
      (s.onclose code tokenValid).sockets.length = s.sockets.length := by
  obtain ⟨htimeouts, hsame, hconnected, hconnecting, hsockets, -, hkeptCalled, hattempts⟩ :=
    cleanup_spec (s := { s with isConnected := false, isConnecting := false }) htracked
  have hrest : Quiet { s with isConnected := false, isConnecting := false }.cleanup :=
    ⟨hsame.trans hsocket, hconnected, hconnecting, htimeouts, hkeptCalled.trans hcalled⟩
  have hlength := congrArg List.length hsockets
  unfold onclose
  dsimp only
  split_ifs with hpolicy hinvalid
  · exact ⟨hrest, hlength⟩
  · exact ⟨hrest, hlength⟩
  · -- the attempts are used up
    have hmax : maxReconnectAttempts ≤ s.reconnectAttempts := by
      by_contra hlt
      exact hkept ⟨by simpa using hpolicy, by simpa using hinvalid, not_le.mp hlt⟩
    unfold scheduleReconnect
    rw [if_pos (hmax.trans_eq hattempts.symm)]
    exact ⟨hrest, hlength⟩

/-- While the engine is at rest, only `connect()` creates a socket. -/
theorem quiet_step {s : WsState α} {event : WsEvent α} (h : Inv s) (hquiet : Quiet s)
    (horder : s.InOrder event) (hevent : ∀ tokenValid, event ≠ .connect tokenValid) :
    Quiet (s.step event) ∧ (s.step event).sockets.length = s.sockets.length := by
  cases event with
  | connect tokenValid => exact absurd rfl (hevent tokenValid)
  | disconnect => exact (quiet_disconnect h).2
  | send data =>
    have hsame := same_send h.connected_socket (.app data)
    exact ⟨hquiet.congr hsame, congrArg _ hsame.sockets⟩
  -- no timeout is left that could fire
  | timeout id tokenValid => simp [step, hquiet.timeouts, hquiet]
  | interval id =>
    simp only [step]
    split_ifs
    · have hsame := same_send h.connected_socket .ping
      exact ⟨hquiet.congr hsame, congrArg _ hsame.sockets⟩
    · exact ⟨hquiet, rfl⟩
  | opened i =>
    simp only [step]
    split_ifs with hi
    · exact absurd (Or.inl hi) (h.not_live_of_quiet hquiet i)
    · exact ⟨hquiet, rfl⟩
  | message i => exact ⟨hquiet, rfl⟩
  | error i =>
    simp only [step]
    split_ifs with hdone
    · exact ⟨hquiet, rfl⟩
    · exact absurd hquiet.socket (horder hdone)
  | drop i =>
    simp only [step]
    split_ifs
    · exact ⟨⟨hquiet.socket, hquiet.isConnected, hquiet.isConnecting, hquiet.timeouts,
        hquiet.connectCalled⟩, List.length_set⟩
    · exact ⟨hquiet, rfl⟩
  | close i code tokenValid =>
    simp only [step]
    split_ifs with hclosing
    · -- a `close` event of a socket that was given up: in order, it schedules no reconnect
      have hkept := (horder hclosing (by rw [hquiet.socket]; exact nofun)).2 hquiet.socket
        hquiet.connectCalled
      obtain ⟨hclosed, hlength⟩ :=
        quiet_onclose (s := { s with sockets := s.sockets.set i .closed })
        h.timeouts_tracked hquiet.socket hquiet.connectCalled hkept
      exact ⟨hclosed, hlength.trans List.length_set⟩
    · exact ⟨hquiet, rfl⟩

/-! ### Runs -/

theorem inv_run {events : List (WsEvent α)} {s : WsState α} (hs : Inv s)
    (h : Runs.EveryStep step InOrder s events) : Inv (events.foldl step s) :=
  Runs.always_of_everyStep (fun _ _ => inv_step) hs h events List.prefix_rfl

/-- A run from an engine at rest, without `connect()`. -/
theorem quiet_run {events : List (WsEvent α)} {s : WsState α} (hs : Inv s) (hquiet : Quiet s)
    (h : Runs.EveryStep step InOrder s events)
    (hevents : ∀ tokenValid, .connect tokenValid ∉ events) :
    (events.foldl step s).sockets.length = s.sockets.length := by
  induction events generalizing s with
  | nil => rfl
  | cons event events ih =>
    rw [Runs.everyStep_cons] at h
    obtain ⟨hnext, hlength⟩ := quiet_step hs hquiet h.1 fun tokenValid heq =>
      hevents tokenValid (heq ▸ List.mem_cons_self)
    have hrest := ih (inv_step hs h.1) hnext h.2 fun tokenValid hmem =>
      hevents tokenValid (List.mem_cons_of_mem _ hmem)
    exact hrest.trans hlength

/-- A run in order creates no socket between `disconnect()` and the next `connect()`. -/
theorem sockets_after_disconnect {before after : List (WsEvent α)}
    (h : Runs.EveryStep step InOrder init (before ++ .disconnect :: after))
    (hconnect : ∀ tokenValid, .connect tokenValid ∉ after) :
    ((before ++ .disconnect :: after).foldl step init).sockets.length =
      (before.foldl step init).sockets.length := by
  obtain ⟨hbefore, hafter⟩ := Runs.everyStep_append.mp h
  obtain ⟨hinv, hquiet, hlength⟩ := quiet_disconnect (inv_run inv_init hbefore)
  rw [List.foldl_append, List.foldl_cons]
  exact (quiet_run hinv hquiet (Runs.everyStep_cons.mp hafter).2 hconnect).trans hlength

/-- In every run whose events come in order, at most one socket is in use, no method is called on
null, and no socket is created between `disconnect()` and the next `connect()`. -/
theorem sound_of_everyStep (events : List (WsEvent α))
    (h : Runs.EveryStep step InOrder init events) : Sound events := by
  constructor
  · intro done hdone
    obtain ⟨rest, rfl⟩ := hdone
    exact (inv_run inv_init (Runs.everyStep_append.mp h).1).safe
  · intro before after hevents hconnect
    obtain ⟨rest, rfl⟩ := hevents
    exact sockets_after_disconnect (Runs.everyStep_append.mp h).1 hconnect

/-- A connection that is lost and taken up again, and closed by the application. -/
def reconnecting : List (WsEvent ℕ) :=
  [.connect true, .opened 0, .send 5, .drop 0, .error 0, .close 0 1006 true, .timeout 2 true,
    .opened 1, .disconnect, .close 1 1000 false]

/-- A connection that is lost and comes back. -/
theorem sound_of_everyStep_reconnecting : Sound reconnecting := by
  refine sound_of_everyStep reconnecting ?_
  simp only [reconnecting, Runs.everyStep_cons]
  refine ⟨trivial, trivial, trivial, trivial, fun _ => by decide, fun _ h => absurd rfl h, trivial,
    trivial, trivial, fun _ _ => ⟨fun j hj => ?_, fun _ _ h => absurd h.2.1 (by decide)⟩,
    Runs.everyStep_nil⟩
  exact absurd (hj : (none : Option ℕ) = some j) nofun

/-! ### Events out of order -/

/-- No other event touches the record of the calls. -/
theorem connectCalled_step {s : WsState α} (h : Inv s) {event : WsEvent α}
    (hdisconnect : event ≠ .disconnect) (hconnect : ∀ tokenValid, event ≠ .connect tokenValid) :
    (s.step event).connectCalled = s.connectCalled := by
  cases event with
  | connect tokenValid => exact absurd rfl (hconnect tokenValid)
  | disconnect => exact absurd rfl hdisconnect
  | send data => exact (same_send h.connected_socket _).connectCalled
  | timeout id tokenValid =>
    simp only [step, connect]
    split_ifs <;> rfl
  | interval id =>
    simp only [step]
    split_ifs
    · exact (same_send h.connected_socket _).connectCalled
    · rfl
  | opened i =>
    simp only [step]
    split_ifs with hi
    · have hsocket : s.socket ≠ none := by simp [h.live_socket i (Or.inl hi)]
      exact (same_onopen (s := { s with sockets := s.sockets.set i .opened }) hsocket).connectCalled
    · rfl
  | message i => rfl
  | error i =>
    simp only [step, closeSocket]
    split_ifs
    · rfl
    · split
      · rfl
      · split_ifs <;> rfl
  | drop i =>
    simp only [step]
    split_ifs <;> rfl
  | close i code tokenValid =>
    simp only [step]
    split_ifs
    -- the cleanup before a reconnect keeps the record, and the reconnect is only scheduled
    · obtain ⟨-, -, -, -, -, -, hcleanup, -⟩ := cleanup_spec (s := { s with
        sockets := s.sockets.set i .closed
        isConnected := false
        isConnecting := false }) h.timeouts_tracked
      simp only [onclose, scheduleReconnect]
      split_ifs <;> exact hcleanup
    · rfl

/-- Without a call of `connect()` since, the last call was `disconnect()`, unless nothing has been
called at all. -/
theorem exists_disconnect {events : List (WsEvent α)}
    (h : Runs.EveryStep step InOrder init events)
    (hcalled : (events.foldl step init).connectCalled = false) :
    (Quiet (events.foldl step init) ∧ (events.foldl step init).sockets = []) ∨
      ∃ before after, events = before ++ .disconnect :: after ∧
        ∀ tokenValid, .connect tokenValid ∉ after := by
  -- the last call decides, so the induction takes events off the end of the run
  induction events using List.reverseRecOn with
  | nil => exact Or.inl ⟨⟨rfl, rfl, rfl, rfl, rfl⟩, rfl⟩
  | append_singleton events event ih =>
    obtain ⟨hevents, horder⟩ := Runs.everyStep_append.mp h
    rw [List.foldl_append, List.foldl_cons, List.foldl_nil] at hcalled ⊢
    rw [Runs.everyStep_cons] at horder
    by_cases hdisconnect : event = .disconnect
    · exact Or.inr ⟨events, [], by rw [hdisconnect], by simp⟩
    · by_cases hconnect : ∃ tokenValid, event = .connect tokenValid
      · obtain ⟨tokenValid, rfl⟩ := hconnect
        cases hcalled
      · have hkept := connectCalled_step (inv_run inv_init hevents) hdisconnect
          fun tokenValid heq => hconnect ⟨tokenValid, heq⟩
        rcases ih hevents (hkept ▸ hcalled) with ⟨hquiet, hempty⟩ | ⟨before, after, rfl, hafter⟩
        · -- an engine that was never used stays at rest
          obtain ⟨hnext, hlength⟩ := quiet_step (inv_run inv_init hevents) hquiet horder.1
            fun tokenValid heq => hconnect ⟨tokenValid, heq⟩
          rw [hempty, List.length_nil] at hlength
          exact Or.inl ⟨hnext, List.eq_nil_of_length_eq_zero hlength⟩
        · refine Or.inr ⟨before, after ++ [event], by simp, fun tokenValid hmem => ?_⟩
          rcases List.mem_append.mp hmem with hold | hnew
          · exact hafter tokenValid hold
          · exact hconnect ⟨tokenValid, (List.mem_singleton.mp hnew).symm⟩

/-- What a `close` event leaves of the engine, whichever socket it belongs to. -/
theorem close_spec {s : WsState α} (h : Inv s) {i : ℕ} (code : ℕ) (tokenValid : Bool)
    (hclosing : s.sockets[i]? = some .closing) :
    (s.step (.close i code tokenValid)).sockets = s.sockets.set i .closed ∧
      (s.step (.close i code tokenValid)).isConnected = false ∧
      (s.step (.close i code tokenValid)).isConnecting = false ∧
      (s.Reconnects code tokenValid →
        ∃ timeout, (s.step (.close i code tokenValid)).timeouts = [timeout]) := by
  simp only [step, if_pos hclosing]
  exact onclose_spec (s := { s with sockets := s.sockets.set i .closed }) code tokenValid
    h.timeouts_tracked

/-- An engine without flags takes the next `connect()` for the first one. -/
theorem sockets_connect {s : WsState α} (hconnected : s.isConnected = false)
    (hconnecting : s.isConnecting = false) :
    (s.connect true).sockets = s.sockets ++ [.connecting] := by
  simp [connect, hconnected, hconnecting]

/-- So does the timeout of a reconnect. -/
theorem sockets_timeout {s : WsState α} {timeout : Timeout} (htimeout : s.timeouts = [timeout])
    (hconnected : s.isConnected = false) (hconnecting : s.isConnecting = false) :
    (s.step (.timeout timeout.id true)).sockets = s.sockets ++ [.connecting] := by
  have hmem : timeout.id ∈ s.timeouts.map Timeout.id := by simp [htimeout]
  simp only [step, if_pos hmem]
  exact sockets_connect hconnected hconnecting

section OutOfOrder

variable {events : List (WsEvent α)} {i code : ℕ} {tokenValid : Bool}

/-- An `error` event after `disconnect()` is a call on null. -/
theorem not_sound_error
    (hdue : ¬ ((events.foldl step init).sockets[i]? = none ∨
      (events.foldl step init).sockets[i]? = some .closed))
    (hsocket : (events.foldl step init).socket = none) : ¬ Sound (events ++ [.error i]) := by
  intro hsound
  have hsafe := (hsound.1 _ List.prefix_rfl).1
  rw [List.foldl_append, List.foldl_cons, List.foldl_nil] at hsafe
  simp only [step, if_neg hdue, closeSocket, hsocket] at hsafe
  cases hsafe

/-- A `close` event after `disconnect()` that schedules a reconnect: the timeout creates a
socket. -/
theorem exists_unsound_of_reconnects (h : Runs.EveryStep step InOrder init events)
    (hclosing : (events.foldl step init).sockets[i]? = some .closing)
    (hcalled : (events.foldl step init).connectCalled = false)
    (hreconnects : (events.foldl step init).Reconnects code tokenValid) :
    ∃ more, ¬ Sound (events ++ .close i code tokenValid :: more) := by
  obtain ⟨hsockets, hconnected, hconnecting, htimeouts⟩ :=
    close_spec (inv_run inv_init h) code tokenValid hclosing
  obtain ⟨timeout, htimeout⟩ := htimeouts hreconnects
  rcases exists_disconnect h hcalled with ⟨-, hempty⟩ | ⟨before, after, hevents, hafter⟩
  · rw [hempty] at hclosing
    cases hclosing
  · refine ⟨[.timeout timeout.id true], fun hsound => ?_⟩
    have hsplit : events ++ [.close i code tokenValid, .timeout timeout.id true] =
        before ++ .disconnect :: (after ++
          [.close i code tokenValid, .timeout timeout.id true]) := by
      simp [hevents]
    have hnoconnect : ∀ valid, .connect valid ∉
        after ++ [.close i code tokenValid, .timeout timeout.id true] := fun valid hmem => by
      rcases List.mem_append.mp hmem with hold | hnew
      · exact hafter valid hold
      · simp at hnew
    -- no socket may have been created since `disconnect()`, but the timeout creates one
    have hnow := hsound.2 before _ (hsplit ▸ List.prefix_rfl) hnoconnect
    have hbefore := sockets_after_disconnect (hevents ▸ h) hafter
    have hfires : (((events.foldl step init).step (.close i code tokenValid)).step
        (.timeout timeout.id true)).sockets =
          ((events.foldl step init).step (.close i code tokenValid)).sockets ++ [.connecting] :=
      sockets_timeout htimeout hconnected hconnecting
    rw [← hsplit, ← hbefore, ← hevents, List.foldl_append, List.foldl_cons, List.foldl_cons,
      List.foldl_nil, hfires, hsockets] at hnow
    simp at hnow

/-- A `close` event of another socket takes the flags of the one in use, so that `connect()` creates
a second one. -/
theorem not_sound_of_live {j : ℕ} (h : Runs.EveryStep step InOrder init events)
    (hclosing : (events.foldl step init).sockets[i]? = some .closing) (hne : i ≠ j)
    (hlive : (events.foldl step init).Live j) :
    ¬ Sound (events ++ [.close i code tokenValid, .connect true]) := by
  obtain ⟨hsockets, hconnected, hconnecting, -⟩ :=
    close_spec (inv_run inv_init h) code tokenValid hclosing
  intro hsound
  have hlt : j < (events.foldl step init).sockets.length := by
    rcases hlive with hlive | hlive
    · exact (List.getElem?_eq_some_iff.mp hlive).1
    · exact (List.getElem?_eq_some_iff.mp hlive).1
  have hcreated :
      ((events ++ [WsEvent.close i code tokenValid, .connect true]).foldl step init).sockets =
        (events.foldl step init).sockets.set i .closed ++ [.connecting] := by
    rw [List.foldl_append, List.foldl_cons, List.foldl_cons, List.foldl_nil, ← hsockets,
      ← sockets_connect hconnected hconnecting]
    rfl
  -- the socket in use is still live, and so is the new one behind it
  have hold :
      ((events ++ [WsEvent.close i code tokenValid, .connect true]).foldl step init).Live j := by
    unfold Live
    rwa [hcreated, List.getElem?_append_left (by simpa using hlt), List.getElem?_set_ne hne]
  have hnew : ((events ++ [WsEvent.close i code tokenValid, .connect true]).foldl step init).Live
      (events.foldl step init).sockets.length := by
    refine Or.inl ?_
    rw [hcreated, List.getElem?_append_right (by simp)]
    simp
  have heq := (hsound.1 _ List.prefix_rfl).2 j _ hold hnew
  omega

end OutOfOrder

/-- Every event that is out of order can be followed by others that violate the property. -/
theorem exists_unsound_of_not_inOrder (events : List (WsEvent α)) (event : WsEvent α)
    (h : Runs.EveryStep step InOrder init events)
    (hevent : ¬ InOrder (events.foldl step init) event) :
    ∃ more, ¬ Sound (events ++ event :: more) := by
  cases event with
  | error i =>
    obtain ⟨hdue, hsocket⟩ := Classical.not_imp.mp hevent
    exact ⟨[], not_sound_error hdue (not_not.mp hsocket)⟩
  | close i code tokenValid =>
    obtain ⟨hclosing, hrest⟩ := Classical.not_imp.mp hevent
    obtain ⟨hother, hboth⟩ := Classical.not_imp.mp hrest
    by_cases hlive : ∀ j, (events.foldl step init).socket = some j →
        ¬ (events.foldl step init).Live j
    · -- the first half of the condition holds, so the second one fails: a reconnect
      obtain ⟨-, hreconnect⟩ := Classical.not_imp.mp (not_and.mp hboth hlive)
      obtain ⟨hcalled, hreconnects⟩ := Classical.not_imp.mp hreconnect
      exact exists_unsound_of_reconnects h hclosing hcalled (not_not.mp hreconnects)
    · -- the engine's own socket is in use
      push Not at hlive
      obtain ⟨j, hj, hlive⟩ := hlive
      exact ⟨[.connect true], not_sound_of_live h hclosing (fun heq => hother (heq ▸ hj)) hlive⟩
  | _ => exact absurd trivial hevent

/-- The `close` event of a socket that was given up schedules a reconnect, which creates a socket
although nobody has called `connect()`. -/
def closedLate : List (WsEvent ℕ) :=
  [.connect true, .opened 0, .disconnect, .close 0 1000 true, .timeout 2 true]

theorem not_sound_closedLate : ¬ Sound closedLate := by
  intro h
  have hlength := h.2 [.connect true, .opened 0] [.close 0 1000 true, .timeout 2 true]
    List.prefix_rfl (by simp)
  exact absurd hlength (by decide)

end TradingSimulator.WebSocketEngine.WsState
