import Mathlib.Algebra.Group.Nat.Defs
import Mathlib.Data.List.Basic

/-!
# The WebSocket engine

`WebSocketEngine` (`frontend/src/services/websocket.js`) with the sockets and timers of the browser
as an event system. A socket that is closed, or whose connection drops, gets its `close` event
later, in any order with all other events, and every handler works on the fields of the engine,
whichever socket it belongs to.

The first half of the module is the engine, the second what its methods leave alone: sending and the
heartbeat touch no socket and no timeout (`Same`).
-/

namespace TradingSimulator.WebSocketEngine

/-- `readyState` of a socket. -/
inductive ReadyState where
  | connecting
  | opened
  | closing
  /-- The `close` event has been delivered. -/
  | closed
  deriving DecidableEq

/-- What the engine sends, or is asked to send. -/
inductive Message (α : Type) where
  | subscribeMarket
  | ping
  | app (data : α)
  deriving DecidableEq

/-- A timeout that has been set and neither fired nor been cleared. -/
structure Timeout where
  id : ℕ
  delay : ℕ
  deriving DecidableEq

/-- The fields of the engine, and the sockets and timers it has created. -/
structure WsState (α : Type) where
  socket : Option ℕ
  reconnectAttempts : ℕ
  reconnectTimer : Option ℕ
  heartbeatInterval : Option ℕ
  messageQueue : List (Message α)
  isConnected : Bool
  isConnecting : Bool
  /-- The state of every socket created so far. -/
  sockets : List ReadyState
  /-- The messages that the sockets have taken. -/
  sent : List (ℕ × Message α)
  timeouts : List Timeout
  intervals : List ℕ
  nextTimer : ℕ
  /-- A method was called on `this.socket` while it was null. -/
  nullDereferenced : Bool
  /-- The application has called `connect()` since its last `disconnect()`. -/
  connectCalled : Bool
  deriving DecidableEq

/-- The calls of the application, the timers and the events of the sockets. The validity of the
access token is looked up where a handler does. -/
inductive WsEvent (α : Type) where
  | connect (tokenValid : Bool)
  | disconnect
  | send (data : α)
  | timeout (id : ℕ) (tokenValid : Bool)
  | interval (id : ℕ)
  | opened (socket : ℕ)
  | message (socket : ℕ)
  | error (socket : ℕ)
  /-- The connection of a socket is lost. -/
  | drop (socket : ℕ)
  | close (socket : ℕ) (code : ℕ) (tokenValid : Bool)
  deriving DecidableEq

section Engine

variable {α : Type}

def maxReconnectAttempts : ℕ := 20

/-- `constructor`. -/
def WsState.init : WsState α where
  socket := none
  reconnectAttempts := 0
  reconnectTimer := none
  heartbeatInterval := none
  messageQueue := []
  isConnected := false
  isConnecting := false
  sockets := []
  sent := []
  timeouts := []
  intervals := []
  nextTimer := 1
  nullDereferenced := false
  connectCalled := false

namespace WsState

/-- `this.socket.close()`. -/
def closeSocket (s : WsState α) : WsState α :=
  match s.socket with
  | none => { s with nullDereferenced := true }
  | some i =>
    if s.sockets[i]? = some .connecting ∨ s.sockets[i]? = some .opened then
      { s with sockets := s.sockets.set i .closing }
    else s

/-- `send`. A socket that is not open takes no message: it throws, which is caught, or discards
it. -/
def send (s : WsState α) (data : Message α) : WsState α :=
  if s.isConnected then
    match s.socket with
    | none => { s with nullDereferenced := true }
    | some i => if s.sockets[i]? = some .opened then { s with sent := s.sent ++ [(i, data)] } else s
  else { s with messageQueue := s.messageQueue ++ [data] }

/-- `flushQueue`, which is only called while connected. -/
def flushQueue (s : WsState α) : WsState α :=
  s.messageQueue.foldl send { s with messageQueue := [] }

/-- `stopHeartbeat`. -/
def stopHeartbeat (s : WsState α) : WsState α :=
  match s.heartbeatInterval with
  | none => s
  | some id => { s with heartbeatInterval := none, intervals := s.intervals.erase id }

/-- `startHeartbeat`. -/
def startHeartbeat (s : WsState α) : WsState α :=
  let s := s.stopHeartbeat
  { s with
    heartbeatInterval := some s.nextTimer
    intervals := s.intervals ++ [s.nextTimer]
    nextTimer := s.nextTimer + 1 }

/-- `cleanup`. -/
def cleanup (s : WsState α) : WsState α :=
  let s := s.stopHeartbeat
  match s.reconnectTimer with
  | none => s
  | some id =>
    { s with
      reconnectTimer := none
      timeouts := s.timeouts.filter fun timeout => timeout.id ≠ id }

/-- `scheduleReconnect`. -/
def scheduleReconnect (s : WsState α) : WsState α :=
  if maxReconnectAttempts ≤ s.reconnectAttempts then s
  else
    { s with
      reconnectAttempts := s.reconnectAttempts + 1
      reconnectTimer := some s.nextTimer
      timeouts := s.timeouts ++ [⟨s.nextTimer, min (1000 * 2 ^ s.reconnectAttempts) 20000⟩]
      nextTimer := s.nextTimer + 1 }

/-- `connect`. -/
def connect (s : WsState α) (tokenValid : Bool) : WsState α :=
  if s.isConnected ∨ s.isConnecting then s
  else if tokenValid = false then s
  else
    { s with
      isConnecting := true
      socket := some s.sockets.length
      sockets := s.sockets ++ [.connecting] }

/-- `disconnect`. -/
def disconnect (s : WsState α) : WsState α :=
  let s := s.cleanup
  let s := if s.socket.isSome then s.closeSocket else s
  { s with socket := none, isConnected := false, isConnecting := false }

/-- `onopen`. -/
def onopen (s : WsState α) : WsState α :=
  let s := { s with isConnected := true, isConnecting := false, reconnectAttempts := 0 }
  (s.flushQueue.startHeartbeat).send .subscribeMarket

/-- The server refuses the token. -/
def authPolicy (code : ℕ) : Bool := code = 1008 ∨ code = 4401

/-- `onclose`. -/
def onclose (s : WsState α) (code : ℕ) (tokenValid : Bool) : WsState α :=
  let s := { s with isConnected := false, isConnecting := false }
  let s := s.cleanup
  if authPolicy code then s
  else if tokenValid = false then s
  else s.scheduleReconnect

/-- The state after an event. An event that cannot occur has no effect. -/
def step (s : WsState α) : WsEvent α → WsState α
  | .connect tokenValid => { s.connect tokenValid with connectCalled := true }
  | .disconnect => { s.disconnect with connectCalled := false }
  | .send data => s.send (.app data)
  | .timeout id tokenValid =>
    if id ∈ s.timeouts.map Timeout.id then
      { s with timeouts := s.timeouts.filter fun timeout => timeout.id ≠ id }.connect tokenValid
    else s
  | .interval id => if id ∈ s.intervals then s.send .ping else s
  | .opened i =>
    if s.sockets[i]? = some .connecting then
      { s with sockets := s.sockets.set i .opened }.onopen
    else s
  -- the listeners are not part of the state
  | .message _ => s
  -- `onerror`
  | .error i =>
    if s.sockets[i]? = none ∨ s.sockets[i]? = some .closed then s else s.closeSocket
  | .drop i =>
    if s.sockets[i]? = some .connecting ∨ s.sockets[i]? = some .opened then
      { s with sockets := s.sockets.set i .closing }
    else s
  | .close i code tokenValid =>
    if s.sockets[i]? = some .closing then
      { s with sockets := s.sockets.set i .closed }.onclose code tokenValid
    else s

/-- A socket is connecting or open. -/
def Live (s : WsState α) (i : ℕ) : Prop :=
  s.sockets[i]? = some .connecting ∨ s.sockets[i]? = some .opened

/-- A `close` event would schedule a reconnect. -/
def Reconnects (s : WsState α) (code : ℕ) (tokenValid : Bool) : Prop :=
  authPolicy code = false ∧ tokenValid = true ∧ s.reconnectAttempts < maxReconnectAttempts

/-! ### What the methods do -/

/-- The fields behind the property are the same. -/
structure Same (s s' : WsState α) : Prop where
  socket : s'.socket = s.socket
  reconnectTimer : s'.reconnectTimer = s.reconnectTimer
  isConnected : s'.isConnected = s.isConnected
  isConnecting : s'.isConnecting = s.isConnecting
  sockets : s'.sockets = s.sockets
  timeouts : s'.timeouts = s.timeouts
  nullDereferenced : s'.nullDereferenced = s.nullDereferenced
  connectCalled : s'.connectCalled = s.connectCalled

theorem Same.rfl {s : WsState α} : Same s s := by
  constructor <;> exact Eq.refl _

/-- Two steps that leave these fields alone. -/
theorem Same.trans {s t u : WsState α} (h : Same s t) (h' : Same t u) : Same s u where
  socket := h'.socket.trans h.socket
  reconnectTimer := h'.reconnectTimer.trans h.reconnectTimer
  isConnected := h'.isConnected.trans h.isConnected
  isConnecting := h'.isConnecting.trans h.isConnecting
  sockets := h'.sockets.trans h.sockets
  timeouts := h'.timeouts.trans h.timeouts
  nullDereferenced := h'.nullDereferenced.trans h.nullDereferenced
  connectCalled := h'.connectCalled.trans h.connectCalled

/-- Sending needs a socket only while connected. -/
theorem same_send {s : WsState α} (h : s.isConnected = true → s.socket ≠ none)
    (data : Message α) : Same s (s.send data) := by
  unfold send
  split_ifs with hconnected
  · cases hsocket : s.socket with
    | none => exact absurd hsocket (h hconnected)
    | some i =>
      dsimp only
      split_ifs
      · constructor <;> simp [hsocket]
      · exact Same.rfl
  · constructor <;> rfl

/-- To flush the queue touches neither the sockets nor the timers. -/
theorem same_flushQueue {s : WsState α} (h : s.isConnected = true → s.socket ≠ none) :
    Same s s.flushQueue := by
  have hfold : ∀ (queue : List (Message α)) (t : WsState α), Same s t →
      Same s (queue.foldl send t) := by
    intro queue
    induction queue with
    | nil => exact fun t ht => ht
    | cons data queue ih =>
      intro t ht
      refine ih _ (ht.trans (same_send ?_ data))
      rw [ht.isConnected, ht.socket]
      exact h
  exact hfold s.messageQueue _ ⟨rfl, rfl, rfl, rfl, rfl, rfl, rfl, rfl⟩

theorem same_stopHeartbeat (s : WsState α) : Same s s.stopHeartbeat := by
  unfold stopHeartbeat
  split
  · exact Same.rfl
  · constructor <;> rfl

theorem same_startHeartbeat (s : WsState α) : Same s s.startHeartbeat :=
  (same_stopHeartbeat s).trans ⟨rfl, rfl, rfl, rfl, rfl, rfl, rfl, rfl⟩

/-- Apart from the flags of the connection, `onopen` only moves messages. -/
theorem same_onopen {s : WsState α} (h : s.socket ≠ none) :
    Same { s with isConnected := true, isConnecting := false, reconnectAttempts := 0 }
      s.onopen := by
  have hflush := same_flushQueue
    (s := { s with isConnected := true, isConnecting := false, reconnectAttempts := 0 }) fun _ => h
  have hsame := hflush.trans (same_startHeartbeat _)
  refine hsame.trans (same_send (fun _ => ?_) _)
  rw [hsame.socket]
  exact h

/-- `cleanup()` clears the timeout, as only one is ever set. -/
theorem cleanup_spec {s : WsState α}
    (h : ∀ timeout ∈ s.timeouts, s.reconnectTimer = some timeout.id) :
    s.cleanup.timeouts = [] ∧ s.cleanup.socket = s.socket ∧
      s.cleanup.isConnected = s.isConnected ∧ s.cleanup.isConnecting = s.isConnecting ∧
      s.cleanup.sockets = s.sockets ∧ s.cleanup.nullDereferenced = s.nullDereferenced ∧
      s.cleanup.connectCalled = s.connectCalled ∧
      s.cleanup.reconnectAttempts = s.reconnectAttempts := by
  have hsame := same_stopHeartbeat s
  have hattempts : s.stopHeartbeat.reconnectAttempts = s.reconnectAttempts := by
    unfold stopHeartbeat
    split <;> rfl
  unfold cleanup
  rw [← hsame.timeouts, ← hsame.reconnectTimer] at h
  dsimp only
  split
  · next hnone =>
    -- no timer is set, so there is no timeout that it could belong to
    refine ⟨List.eq_nil_iff_forall_not_mem.mpr fun timeout hmem => ?_, hsame.socket,
      hsame.isConnected, hsame.isConnecting, hsame.sockets, hsame.nullDereferenced,
      hsame.connectCalled, hattempts⟩
    exact absurd (hnone.symm.trans (h timeout hmem)) nofun
  · next id hid =>
    -- all timeouts belong to the timer that is cleared
    refine ⟨List.filter_eq_nil_iff.mpr fun timeout hmem => ?_, hsame.socket,
      hsame.isConnected, hsame.isConnecting, hsame.sockets, hsame.nullDereferenced,
      hsame.connectCalled, hattempts⟩
    simpa using (Option.some.inj (hid.symm.trans (h timeout hmem))).symm

/-- A `close` event resets the flags, whichever socket it belongs to. -/
theorem onclose_spec {s : WsState α} (code : ℕ) (tokenValid : Bool)
    (htracked : ∀ timeout ∈ s.timeouts, s.reconnectTimer = some timeout.id) :
    (s.onclose code tokenValid).sockets = s.sockets ∧
      (s.onclose code tokenValid).isConnected = false ∧
      (s.onclose code tokenValid).isConnecting = false ∧
      (s.Reconnects code tokenValid →
        ∃ timeout, (s.onclose code tokenValid).timeouts = [timeout]) := by
  obtain ⟨htimeouts, -, hconnected, hconnecting, hsockets, -, -, hattempts⟩ :=
    cleanup_spec (s := { s with isConnected := false, isConnecting := false }) htracked
  unfold onclose
  dsimp only
  split_ifs with hpolicy hinvalid
  · exact ⟨hsockets, hconnected, hconnecting, fun h => absurd (hpolicy.symm.trans h.1) (by simp)⟩
  · exact ⟨hsockets, hconnected, hconnecting, fun h => absurd (hinvalid.symm.trans h.2.1) (by simp)⟩
  · unfold scheduleReconnect
    split_ifs with hmax
    · exact ⟨hsockets, hconnected, hconnecting,
        fun h => absurd h.2.2 (Nat.not_lt.mpr (hattempts ▸ hmax))⟩
    · exact ⟨hsockets, hconnected, hconnecting, fun _ => ⟨_, by rw [htimeouts]; rfl⟩⟩

end WsState

end Engine

end TradingSimulator.WebSocketEngine
