import TradingSimulator.Frontend.WebSocketEngine
import TradingSimulator.Library.Runs

/-!
# Messages of the application

What becomes of the messages that the application gives to `send()` of the WebSocket engine
(`frontend/src/services/websocket.js`). They wait in `messageQueue` until a socket is connected and
are never put in another order or sent twice (`handled_sublist_calls`). One is lost exactly when it
is handed to a socket that is not open while the engine takes itself for connected.
-/

namespace TradingSimulator.WebSocketEngine

variable {α : Type}

/-- The data of a message of the application. -/
def Message.data : Message α → Option α
  | .app data => some data
  | _ => none

/-- The messages that the application has sent. -/
def calls (events : List (WsEvent α)) : List α :=
  events.filterMap fun event =>
    match event with
    | .send data => some data
    | _ => none

namespace WsState

/-- The messages of the application that a socket has taken, and then those that wait. -/
def handled (s : WsState α) : List α :=
  (s.sent.filterMap fun entry => entry.2.data) ++ s.messageQueue.filterMap Message.data

/-- The socket of the engine can take a message. -/
def CanSend (s : WsState α) : Prop :=
  ∃ i, s.socket = some i ∧ s.sockets[i]? = some .opened

/-- The socket that is opened by an event. -/
def openSocket (s : WsState α) (i : ℕ) : WsState α :=
  { s with sockets := s.sockets.set i .opened }

/-- An event on which a message of the application goes to a socket that does not take it. -/
def Loses (s : WsState α) : WsEvent α → Prop
  | .send _ => s.isConnected = true ∧ ¬ s.CanSend
  | .opened i =>
    s.sockets[i]? = some .connecting ∧ s.messageQueue.filterMap Message.data ≠ [] ∧
      ¬ (s.openSocket i).CanSend
  | _ => False

/-- Messages wait only while the engine is not connected. -/
def QueueInv (s : WsState α) : Prop := s.isConnected = true → s.messageQueue = []

/-- No message was handed on, and the engine has not connected. -/
structure Untouched (s s' : WsState α) : Prop where
  sent : s'.sent = s.sent
  messageQueue : s'.messageQueue = s.messageQueue
  isConnected : s'.isConnected = true → s.isConnected = true

theorem Untouched.trans {s t u : WsState α} (h : Untouched s t) (h' : Untouched t u) :
    Untouched s u where
  sent := h'.sent.trans h.sent
  messageQueue := h'.messageQueue.trans h.messageQueue
  isConnected := h.isConnected ∘ h'.isConnected

theorem Untouched.handled {s s' : WsState α} (h : Untouched s s') : s'.handled = s.handled := by
  rw [WsState.handled, WsState.handled, h.sent, h.messageQueue]

theorem Untouched.queueInv {s s' : WsState α} (h : Untouched s s') (hs : s.QueueInv) :
    s'.QueueInv :=
  fun hconnected => h.messageQueue.trans (hs (h.isConnected hconnected))

theorem untouched_rfl (s : WsState α) : Untouched s s := ⟨rfl, rfl, id⟩

/-- The close of the socket moves no message. -/
theorem untouched_closeSocket (s : WsState α) : Untouched s s.closeSocket := by
  unfold closeSocket
  split
  · exact ⟨rfl, rfl, id⟩
  · split_ifs
    · exact ⟨rfl, rfl, id⟩
    · exact untouched_rfl s

theorem untouched_stopHeartbeat (s : WsState α) : Untouched s s.stopHeartbeat := by
  unfold stopHeartbeat
  split
  · exact untouched_rfl s
  · exact ⟨rfl, rfl, id⟩

theorem untouched_startHeartbeat (s : WsState α) : Untouched s s.startHeartbeat :=
  (untouched_stopHeartbeat s).trans ⟨rfl, rfl, id⟩

/-- `cleanup` moves no message. -/
theorem untouched_cleanup (s : WsState α) : Untouched s s.cleanup := by
  refine (untouched_stopHeartbeat s).trans ?_
  unfold cleanup
  dsimp only
  split
  · exact untouched_rfl _
  · exact ⟨rfl, rfl, id⟩

theorem untouched_scheduleReconnect (s : WsState α) : Untouched s s.scheduleReconnect := by
  unfold scheduleReconnect
  split_ifs
  · exact untouched_rfl s
  · exact ⟨rfl, rfl, id⟩

/-- `connect` moves no message. -/
theorem untouched_connect (s : WsState α) (tokenValid : Bool) :
    Untouched s (s.connect tokenValid) := by
  unfold connect
  split_ifs
  · exact untouched_rfl s
  · exact untouched_rfl s
  · exact ⟨rfl, rfl, id⟩

/-- `disconnect` moves no message. -/
theorem untouched_disconnect (s : WsState α) : Untouched s s.disconnect := by
  unfold disconnect
  dsimp only
  split_ifs
  · exact ((untouched_cleanup s).trans (untouched_closeSocket _)).trans ⟨rfl, rfl, nofun⟩
  · exact (untouched_cleanup s).trans ⟨rfl, rfl, nofun⟩

/-- A close hands over no message and drops none. -/
theorem untouched_onclose (s : WsState α) (code : ℕ) (tokenValid : Bool) :
    Untouched s (s.onclose code tokenValid) := by
  have hclosed : Untouched s { s with isConnected := false, isConnecting := false } :=
    ⟨rfl, rfl, nofun⟩
  have hstart := hclosed.trans (untouched_cleanup _)
  unfold onclose
  dsimp only
  split_ifs
  · exact hstart
  · exact hstart
  · exact hstart.trans (untouched_scheduleReconnect _)

/-! ### Sending -/

/-- A message that can be sent is handed to the socket, not to the queue. -/
theorem send_of_canSend {s : WsState α} (hconnected : s.isConnected = true) (hcan : s.CanSend)
    (message : Message α) :
    ∃ i, s.send message = { s with sent := s.sent ++ [(i, message)] } := by
  obtain ⟨i, hsocket, hopened⟩ := hcan
  exact ⟨i, by simp [send, hconnected, hsocket, hopened]⟩

/-- A send that cannot be handed on changes nothing but that it may fail. -/
theorem send_of_not_canSend {s : WsState α} (hconnected : s.isConnected = true)
    (hcannot : ¬ s.CanSend) (message : Message α) :
    ∃ failed, s.send message = { s with nullDereferenced := failed } := by
  rcases Option.eq_none_or_eq_some s.socket with hsocket | ⟨i, hsocket⟩
  · exact ⟨true, by simp [send, hconnected, hsocket]⟩
  · have hclosed : s.sockets[i]? ≠ some .opened := fun h => hcannot ⟨i, hsocket, h⟩
    have hsame : s.send message = s := by
      unfold send
      rw [if_pos hconnected, hsocket]
      exact if_neg hclosed
    exact ⟨s.nullDereferenced, hsame⟩

/-- What a connected engine makes of messages that are sent one after the other: its socket takes
all of them, or none. -/
theorem foldl_send {s : WsState α} (hconnected : s.isConnected = true)
    (messages : List (Message α)) :
    (messages.foldl send s).isConnected = true ∧ (messages.foldl send s).socket = s.socket ∧
      (messages.foldl send s).sockets = s.sockets ∧
      (messages.foldl send s).messageQueue = s.messageQueue ∧
      (s.CanSend → ((messages.foldl send s).sent.filterMap fun entry => entry.2.data) =
        (s.sent.filterMap fun entry => entry.2.data) ++ messages.filterMap Message.data) ∧
      (¬ s.CanSend → (messages.foldl send s).sent = s.sent) := by
  induction messages generalizing s with
  | nil => simp [hconnected]
  | cons message messages ih =>
    rw [List.foldl_cons]
    by_cases hcan : s.CanSend
    · obtain ⟨i, hsend⟩ := send_of_canSend hconnected hcan message
      obtain ⟨h1, h2, h3, h4, h5, h6⟩ := ih (s := s.send message) (by rw [hsend]; exact hconnected)
      rw [hsend] at h1 h2 h3 h4 h5 h6 ⊢
      refine ⟨h1, h2, h3, h4, fun _ => ?_, fun h => absurd hcan h⟩
      rw [h5 hcan]
      cases hdata : message.data <;> simp [hdata]
    · obtain ⟨failed, hsend⟩ := send_of_not_canSend hconnected hcan message
      obtain ⟨h1, h2, h3, h4, h5, h6⟩ := ih (s := s.send message) (by rw [hsend]; exact hconnected)
      rw [hsend] at h1 h2 h3 h4 h5 h6 ⊢
      exact ⟨h1, h2, h3, h4, fun h => absurd h hcan, fun _ => h6 hcan⟩

/-- A connected engine hands a message on at once, and loses it when its socket does not take it. -/
theorem handled_send {s : WsState α} (hs : s.QueueInv) (message : Message α) :
    (s.send message).QueueInv ∧
      (s.isConnected = true ∧ ¬ s.CanSend → (s.send message).handled = s.handled) ∧
      (¬ (s.isConnected = true ∧ ¬ s.CanSend) →
        (s.send message).handled = s.handled ++ message.data.toList) := by
  by_cases hconnected : s.isConnected = true
  · have hqueue := hs hconnected
    by_cases hcan : s.CanSend
    · obtain ⟨i, hsend⟩ := send_of_canSend hconnected hcan message
      rw [hsend]
      refine ⟨hs, fun h => absurd hcan h.2, fun _ => ?_⟩
      cases hdata : message.data <;> simp [handled, hqueue, hdata]
    · -- the socket is there but not open, and the message is gone
      obtain ⟨failed, hsend⟩ := send_of_not_canSend hconnected hcan message
      rw [hsend]
      exact ⟨hs, fun _ => rfl, fun h => absurd ⟨hconnected, hcan⟩ h⟩
  · -- without a connection the message waits
    have hsend : s.send message = { s with messageQueue := s.messageQueue ++ [message] } :=
      if_neg hconnected
    rw [hsend]
    refine ⟨fun h => absurd h hconnected, fun h => absurd h.1 hconnected, fun _ => ?_⟩
    cases hdata : message.data <;> simp [handled, hdata]

/-- The engine's own messages are no messages of the application. -/
theorem handled_internal {s : WsState α} (hs : s.QueueInv) {message : Message α}
    (hmessage : message.data = none) : (s.send message).handled = s.handled := by
  obtain ⟨-, hlost, hkept⟩ := handled_send hs message
  by_cases h : s.isConnected = true ∧ ¬ s.CanSend
  · exact hlost h
  · simpa [hmessage] using hkept h

/-- When a socket opens, the messages that wait go to the socket of the engine, and after them the
subscription. -/
theorem onopen_spec (s : WsState α) :
    s.onopen.isConnected = true ∧ s.onopen.messageQueue = [] ∧
      (s.CanSend → s.onopen.handled = s.handled) ∧
      (¬ s.CanSend → s.onopen.handled = s.sent.filterMap fun entry => entry.2.data) := by
  let t : WsState α :=
    { s with
      isConnected := true, isConnecting := false, reconnectAttempts := 0, messageQueue := [] }
  have hopen :
      s.onopen = ((s.messageQueue.foldl send t).startHeartbeat).send .subscribeMarket := rfl
  obtain ⟨hconnected, hsocket, hsockets, hqueue, hcan, hcannot⟩ :=
    foldl_send (s := t) rfl s.messageQueue
  have htaken : (s.CanSend → ((s.messageQueue.foldl send t).sent.filterMap fun entry =>
        entry.2.data) = s.handled) ∧
      (¬ s.CanSend → (s.messageQueue.foldl send t).sent = s.sent) := ⟨hcan, hcannot⟩
  -- the heartbeat and the subscription are no messages of the application
  have hlast : ∀ u : WsState α, u.isConnected = true → u.messageQueue = [] →
      (u.startHeartbeat.send .subscribeMarket).isConnected = true ∧
        (u.startHeartbeat.send .subscribeMarket).messageQueue = [] ∧
        (u.startHeartbeat.send .subscribeMarket).handled =
          u.sent.filterMap fun entry => entry.2.data := by
    intro u hu hqueue
    have hbeat := untouched_startHeartbeat u
    have hinv : u.startHeartbeat.QueueInv := fun _ => hbeat.messageQueue.trans hqueue
    have hu' : u.startHeartbeat.isConnected = true := by
      rw [(same_startHeartbeat u).isConnected, hu]
    obtain ⟨hsent, -, -, hqueue', -⟩ := foldl_send hu' [.subscribeMarket]
    refine ⟨hsent, hqueue'.trans (hinv hu'), ?_⟩
    rw [handled_internal hinv rfl, hbeat.handled, handled, hqueue]
    simp
  rw [hopen]
  obtain ⟨h1, h2, h3⟩ := hlast _ hconnected hqueue
  exact ⟨h1, h2, fun h => h3.trans (htaken.1 h), fun h => h3.trans (by rw [htaken.2 h])⟩

/-- What waits is lost when a socket opens that is not the one of the engine. -/
theorem handled_opened (s : WsState α) (i : ℕ) :
    (s.openSocket i).onopen.QueueInv ∧
      (s.messageQueue.filterMap Message.data = [] ∨ (s.openSocket i).CanSend →
        (s.openSocket i).onopen.handled = s.handled) ∧
      (s.messageQueue.filterMap Message.data ≠ [] → ¬ (s.openSocket i).CanSend →
        (s.openSocket i).onopen.handled.Sublist (s.handled ++ calls [.opened i]) ∧
          (s.openSocket i).onopen.handled.length < (s.handled ++ calls [.opened i]).length) := by
  obtain ⟨-, hqueue, hcan, hcannot⟩ := onopen_spec (s.openSocket i)
  refine ⟨fun _ => hqueue, fun h => ?_, fun hsome hopened => ?_⟩
  · by_cases hopened : (s.openSocket i).CanSend
    · exact hcan hopened
    · have hnone := h.resolve_right hopened
      simpa [handled, hnone, openSocket] using hcannot hopened
  · rw [hcannot hopened]
    have hpos := List.length_pos_of_ne_nil hsome
    exact ⟨by simp [calls, handled, openSocket], by simpa [calls, handled, openSocket] using hpos⟩

/-- An event hands the data of its call on, unless it loses a message. -/
theorem handled_step {s : WsState α} (hs : s.QueueInv) (event : WsEvent α) :
    (s.step event).QueueInv ∧
      (¬ s.Loses event → (s.step event).handled = s.handled ++ calls [event]) ∧
      (s.Loses event → (s.step event).handled.Sublist (s.handled ++ calls [event]) ∧
        (s.step event).handled.length < (s.handled ++ calls [event]).length) := by
  -- the events that are no calls of `send()` and open no socket
  have huntouched : ∀ s' : WsState α, Untouched s s' → calls [event] = [] → ¬ s.Loses event →
      s'.QueueInv ∧ (¬ s.Loses event → s'.handled = s.handled ++ calls [event]) ∧
        (s.Loses event → s'.handled.Sublist (s.handled ++ calls [event]) ∧
          s'.handled.length < (s.handled ++ calls [event]).length) := by
    intro s' h hcalls hnot
    rw [hcalls, List.append_nil]
    exact ⟨h.queueInv hs, fun _ => h.handled, fun hloses => absurd hloses hnot⟩
  cases event with
  | connect tokenValid =>
    exact huntouched _ ((untouched_connect s tokenValid).trans ⟨rfl, rfl, id⟩) rfl id
  | disconnect => exact huntouched _ ((untouched_disconnect s).trans ⟨rfl, rfl, id⟩) rfl id
  | send data =>
    obtain ⟨hinv, hlost, hkept⟩ := handled_send hs (.app data)
    refine ⟨hinv, fun h => hkept h, fun h => ?_⟩
    rw [step, hlost h]
    simp [calls]
  | timeout id tokenValid =>
    unfold step
    dsimp only
    split_ifs
    · refine huntouched _ ?_ rfl not_false
      refine Untouched.trans ?_ (untouched_connect _ tokenValid)
      exact ⟨rfl, rfl, fun h => h⟩
    · exact huntouched _ (untouched_rfl s) rfl not_false
  | interval id =>
    unfold step
    dsimp only
    split_ifs
    · have hping : (s.send .ping).handled = s.handled := handled_internal hs rfl
      exact ⟨(handled_send hs .ping).1, fun _ => by simpa [calls] using hping, nofun⟩
    · exact huntouched _ (untouched_rfl s) rfl not_false
  | opened i =>
    unfold step
    dsimp only
    split_ifs with hconnecting
    · obtain ⟨hinv, hkept, hlost⟩ := handled_opened s i
      refine ⟨hinv, fun hnot => ?_, fun hloses => hlost hloses.2.1 hloses.2.2⟩
      refine (hkept ?_).trans (List.append_nil _).symm
      by_contra h
      rw [not_or] at h
      exact hnot ⟨hconnecting, h⟩
    · exact huntouched _ (untouched_rfl s) rfl fun hloses => hconnecting hloses.1
  | message i => exact huntouched _ (untouched_rfl s) rfl id
  | error i =>
    unfold step
    dsimp only
    split_ifs
    · exact huntouched _ (untouched_rfl s) rfl id
    · exact huntouched _ (untouched_closeSocket s) rfl id
  | drop i =>
    unfold step
    dsimp only
    split_ifs
    · exact huntouched _ ⟨rfl, rfl, id⟩ rfl id
    · exact huntouched _ (untouched_rfl s) rfl id
  | close i code tokenValid =>
    unfold step
    dsimp only
    split_ifs
    · refine huntouched _ ?_ rfl not_false
      refine Untouched.trans ?_ (untouched_onclose _ code tokenValid)
      exact ⟨rfl, rfl, fun h => h⟩
    · exact huntouched _ (untouched_rfl s) rfl id

end WsState

open WsState

/-- What the engine has handed on and what waits are messages of the application in the order it has
sent them in, none of them twice; they are all of them exactly when no event has lost one. -/
theorem handled_sublist_calls (events : List (WsEvent α)) :
    (events.foldl step init).handled.Sublist (calls events) ∧
      ((events.foldl step init).handled = calls events ↔
        Runs.EveryStep step (fun s event => ¬ s.Loses event) init events) := by
  -- an open connection has no queue, in every state of a run
  have hinv : ∀ events : List (WsEvent α), (events.foldl step (init : WsState α)).QueueInv :=
    fun events => Runs.foldl_invariant (A := fun _ => True) (J := QueueInv)
      (fun _ event _ hs => (handled_step hs event).1) (fun _ => rfl) fun _ _ => trivial
  induction events using List.reverseRecOn with
  | nil => simp [init, handled, calls, Runs.everyStep_nil]
  | append_singleton events last ih =>
    obtain ⟨hsublist, hiff⟩ := ih
    obtain ⟨-, hkept, hlost⟩ := handled_step (hinv events) last
    have hcalls : calls (events ++ [last]) = calls events ++ calls [last] :=
      List.filterMap_append
    -- no event of the run has lost one: none before, and not the last one
    have hevery : Runs.EveryStep step (fun s event => ¬ s.Loses event) init (events ++ [last]) ↔
        (events.foldl step init).handled = calls events ∧
          ¬ (events.foldl step init).Loses last := by
      rw [Runs.everyStep_append, Runs.everyStep_cons, ← hiff]
      simp [Runs.everyStep_nil]
    rw [hevery, hcalls, List.foldl_append, List.foldl_cons, List.foldl_nil]
    by_cases hloses : (events.foldl step init).Loses last
    · -- a message that is lost is missing for good, by the length
      obtain ⟨hsub, hlength⟩ := hlost hloses
      have hle := (hsublist.append_right (calls [last])).length_le
      refine ⟨hsub.trans (hsublist.append_right _), fun h => ?_, fun h => absurd hloses h.2⟩
      rw [h] at hlength
      omega
    · rw [hkept hloses]
      exact ⟨hsublist.append_right _, by simp [hloses]⟩

end TradingSimulator.WebSocketEngine
