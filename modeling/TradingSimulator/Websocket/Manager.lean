import Mathlib.Data.Finset.Basic
import TradingSimulator.Auth.Revocation
import TradingSimulator.Library.PublishedLogs
import TradingSimulator.Library.Runs

/-!
# The connection manager

`ConnectionManager` (`app/websocket/manager.py`) with the tasks that call it: the engines, each of
which awaits one `broadcast` after the other, and `websocket_endpoint` (`app/api/routes.py`), once
for every client. The tasks are interleaved where they await something. The lock of the manager is
never held over an `await`, so its critical sections are single steps, also the one that drops a
client when a send has failed.

A client is in the registry from the moment it is accepted until its endpoint ends or a send to it
fails (`mem_connections_iff`), and for that time it is handed every message of every engine
(`taken_eq_published`).
-/

namespace TradingSimulator.Websocket

/-- A JSON value: a string, or the text of any other value. An entry that is missing is `null`. -/
inductive JsonValue where
  | text (value : String)
  | other (rendered : String)
  deriving DecidableEq

/-- What `json.loads` makes of a text. -/
inductive Frame where
  /-- `json.JSONDecodeError`. -/
  | invalid
  /-- A value that has no method `get`. -/
  | notObject
  /-- An object, with its entries `type` and `channel`. -/
  | object (type channel : JsonValue)
  deriving DecidableEq

/-- What the endpoint answers. -/
inductive Reply where
  | pong (timestamp : ℚ)
  | subscribed (channel : JsonValue)
  deriving DecidableEq

/-- A message that `send_json` has handed to a client. -/
inductive Delivery (Engine Message : Type) where
  | published (engine : Engine) (message : Message)
  | replied (reply : Reply)
  deriving DecidableEq

/-- How far `websocket_endpoint` is for a client. -/
inductive Endpoint where
  | notCalled
  /-- In the loop that receives. -/
  | receiving
  | ended
  deriving DecidableEq

/-- A call of `broadcast` that is not over: the clients of its snapshot that `_safe_send` has not
been through with. -/
structure Broadcast (Client Message : Type) where
  message : Message
  sending : Finset Client

/-- The registry of the manager, the calls of its methods that are in progress and the messages so
far. -/
structure Hub (Client Engine Message : Type) where
  endpoints : Client → Endpoint
  connections : Finset Client
  broadcasts : Engine → Option (Broadcast Client Message)
  inbox : Client → List (Delivery Engine Message)
  /-- The messages that `broadcast` was called with. -/
  emitted : Engine → List Message

/-- Where one of the tasks goes on. The outcome of an `await` is part of the event. -/
inductive HubEvent (Client Engine Message Token : Type) where
  /-- A client calls `/ws`. -/
  | opened (client : Client) (token : Option Token) (now : ℚ) (accepted : Bool)
  | received (client : Client) (frame : Frame) (now : ℚ) (sent : Bool)
  /-- `receive_text` raises. -/
  | left (client : Client)
  | emitted (engine : Engine) (message : Message)
  /-- The send of a broadcast to one client is through. -/
  | sent (engine : Engine) (client : Client) (sent : Bool)

variable {Client Engine Message Token : Type}

/-- No client has called, and no engine. -/
def Hub.init : Hub Client Engine Message where
  endpoints := fun _ => .notCalled
  connections := ∅
  broadcasts := fun _ => none
  inbox := fun _ => []
  emitted := fun _ => []

section Manager

variable [DecidableEq Client] [DecidableEq Engine]

namespace Hub

/-- `connect`, once the client is accepted. -/
def connect (hub : Hub Client Engine Message) (client : Client) : Hub Client Engine Message :=
  { hub with connections := insert client hub.connections }

/-- `disconnect`. -/
def disconnect (hub : Hub Client Engine Message) (client : Client) : Hub Client Engine Message :=
  { hub with connections := hub.connections.erase client }

/-- A successful `send_json`. -/
def deliver (hub : Hub Client Engine Message) (client : Client)
    (delivery : Delivery Engine Message) : Hub Client Engine Message :=
  { hub with inbox := Function.update hub.inbox client (hub.inbox client ++ [delivery]) }

/-- `broadcast` up to its `gather`. An engine that still awaits its last call does not call. -/
def broadcast (hub : Hub Client Engine Message) (engine : Engine) (message : Message) :
    Hub Client Engine Message :=
  match hub.broadcasts engine with
  | some _ => hub
  | none =>
    let hub :=
      { hub with emitted := Function.update hub.emitted engine (hub.emitted engine ++ [message]) }
    if hub.connections = ∅ then hub
    else
      { hub with
        broadcasts := Function.update hub.broadcasts engine
          (some { message, sending := hub.connections }) }

/-- The `gather` of a broadcast is over when all its sends are. -/
def Broadcast.without (broadcast : Broadcast Client Message) (client : Client) :
    Option (Broadcast Client Message) :=
  if broadcast.sending.erase client = ∅ then none
  else some { broadcast with sending := broadcast.sending.erase client }

/-- `_safe_send`. -/
def safeSend (hub : Hub Client Engine Message) (engine : Engine) (client : Client) (sent : Bool) :
    Hub Client Engine Message :=
  match hub.broadcasts engine with
  | none => hub
  | some broadcast =>
    if client ∈ broadcast.sending then
      let hub :=
        { hub with
          broadcasts := Function.update hub.broadcasts engine (Broadcast.without broadcast client) }
      if sent then hub.deliver client (.published engine broadcast.message)
      else hub.disconnect client
    else hub

/-- The endpoint of a client ends, in one of the two handlers of its exceptions. -/
def endEndpoint (hub : Hub Client Engine Message) (client : Client) : Hub Client Engine Message :=
  { hub.disconnect client with endpoints := Function.update hub.endpoints client .ended }

/-- What the endpoint answers to a frame. -/
def reply (frame : Frame) (now : ℚ) : Option Reply :=
  match frame with
  | .object (.text "ping") _ => some (.pong now)
  -- the channel is sent back as it came
  | .object (.text "subscribe") channel => some (.subscribed channel)
  | _ => none

/-- One turn of the loop of the endpoint. -/
def receive (hub : Hub Client Engine Message) (client : Client) (frame : Frame) (now : ℚ)
    (sent : Bool) : Hub Client Engine Message :=
  match frame with
  | .invalid => hub
  -- the attribute error is caught by the handler of all exceptions
  | .notObject => hub.endEndpoint client
  | .object type channel =>
    match reply (.object type channel) now with
    | none => hub
    | some reply =>
      if sent then hub.deliver client (.replied reply) else hub.endEndpoint client

variable (lib : JwtLib Token) (settings : Settings)

/-- The claims that let a client in. -/
def authenticate (token : Option Token) (now : ℚ) : Option Claims :=
  match token with
  | none => none
  | some token =>
    if lib.isEmpty token then none else verifyToken lib settings now token

/-- `websocket_endpoint` up to its loop. -/
def openEndpoint (hub : Hub Client Engine Message) (client : Client) (token : Option Token)
    (now : ℚ) (accepted : Bool) : Hub Client Engine Message :=
  match authenticate lib settings token now with
  | none => { hub with endpoints := Function.update hub.endpoints client .ended }
  | some _ =>
    if accepted then
      { hub.connect client with endpoints := Function.update hub.endpoints client .receiving }
    else { hub with endpoints := Function.update hub.endpoints client .ended }

/-- The state after an event. An event that cannot occur has no effect. -/
def step (hub : Hub Client Engine Message) :
    HubEvent Client Engine Message Token → Hub Client Engine Message
  | .opened client token now accepted =>
    if hub.endpoints client = .notCalled then
      hub.openEndpoint lib settings client token now accepted
    else hub
  | .received client frame now sent =>
    if hub.endpoints client = .receiving then hub.receive client frame now sent else hub
  | .left client => if hub.endpoints client = .receiving then hub.endEndpoint client else hub
  | .emitted engine message => hub.broadcast engine message
  | .sent engine client sent => hub.safeSend engine client sent

/-- A run from the start of the server. -/
def run (events : List (HubEvent Client Engine Message Token)) : Hub Client Engine Message :=
  events.foldl (step lib settings) .init

/-! ### The log of an engine and its readers -/

/-- The message of a delivery, if it is one of an engine. -/
def fromEngine (engine : Engine) : Delivery Engine Message → Option Message
  | .published e message => if e = engine then some message else none
  | .replied _ => none

/-- What a client was handed of the messages of an engine. -/
def taken (hub : Hub Client Engine Message) (engine : Engine) (client : Client) : List Message :=
  (hub.inbox client).filterMap (fromEngine engine)

/-- The message of an engine that is on its way to a client. -/
def onItsWay (hub : Hub Client Engine Message) (engine : Engine) (client : Client) :
    List Message :=
  match hub.broadcasts engine with
  | none => []
  | some broadcast => if client ∈ broadcast.sending then [broadcast.message] else []

/-- A client as a reader of the messages of an engine. -/
def reader (hub : Hub Client Engine Message) (joined : ℕ) (engine : Engine) (client : Client) :
    LogReader Message where
  joined := joined
  taken := hub.taken engine client
  onItsWay := hub.onItsWay engine client
  attached := client ∈ hub.connections

/-- An event on which a client in the registry is dropped: its own endpoint ends, or a broadcast
cannot be sent to it. -/
def Drops (hub : Hub Client Engine Message) (client : Client) :
    HubEvent Client Engine Message Token → Prop
  | .opened _ _ _ _ => False
  | .received c frame now sent =>
    c = client ∧ (frame = .notObject ∨ (reply frame now).isSome ∧ sent = false)
  | .left c => c = client
  | .emitted _ _ => False
  | .sent engine c sent => c = client ∧ hub.onItsWay engine client ≠ [] ∧ sent = false

/-- An event that lets a client in. -/
def Opens (hub : Hub Client Engine Message) (client : Client) :
    HubEvent Client Engine Message Token → Prop
  | .opened c token now accepted =>
    c = client ∧ hub.endpoints client = .notCalled ∧ (authenticate lib settings token now).isSome ∧
      accepted = true
  | _ => False

section Operations

variable {lib settings} (hub : Hub Client Engine Message)

/-- What is delivered to a client is taken by it, if it comes from the engine. -/
theorem reader_deliver (client : Client) (delivery : Delivery Engine Message) (joined : ℕ)
    (engine : Engine) (c : Client) :
    (hub.deliver client delivery).reader joined engine c =
      { hub.reader joined engine c with
        taken := hub.taken engine c ++
          if c = client then (fromEngine engine delivery).toList else [] } := by
  unfold reader taken deliver
  by_cases h : c = client
  · subst h
    cases hfrom : fromEngine engine delivery <;> simp [hfrom, onItsWay]
  · simp [h, onItsWay]

/-- A client that is dropped is attached no more. -/
theorem reader_disconnect (client : Client) (joined : ℕ) (engine : Engine) (c : Client) :
    (hub.disconnect client).reader joined engine c =
      { hub.reader joined engine c with
        attached := if c = client then false else c ∈ hub.connections } := by
  by_cases h : c = client <;> simp [reader, taken, disconnect, onItsWay, h]

/-- A client has the message of a broadcast on its way until its own send is through. -/
theorem reader_without {engine : Engine} {broadcast : Broadcast Client Message}
    (hbroadcast : hub.broadcasts engine = some broadcast) (client : Client) (joined : ℕ)
    (e : Engine) (c : Client) :
    ({ hub with
        broadcasts := Function.update hub.broadcasts engine
          (Broadcast.without broadcast client) }).reader joined e c =
      { hub.reader joined e c with
        onItsWay := if e = engine ∧ c = client then [] else hub.onItsWay e c } := by
  simp only [reader, taken, LogReader.mk.injEq, true_and, and_true]
  unfold onItsWay
  by_cases he : e = engine
  · subst he
    simp only [Function.update_self, Broadcast.without, hbroadcast, true_and]
    by_cases hempty : broadcast.sending.erase client = ∅
    · have hnot : c ≠ client → c ∉ broadcast.sending := fun hc hmem =>
        absurd (Finset.mem_erase.mpr ⟨hc, hmem⟩) (by simp [hempty])
      by_cases hc : c = client
      · simp [hempty, hc]
      · simp [hempty, hc, hnot hc]
    · by_cases hc : c = client
      · simp [hempty, hc]
      · simp [hempty, hc]
  · simp [he]

/-- A broadcast is published to the clients of the registry. -/
theorem step_broadcast (engine : Engine) (message : Message) (joined : ℕ) (e : Engine)
    (client : Client) :
    LogReader.Step (hub.emitted e) (hub.reader joined e client)
      ((hub.broadcast engine message).emitted e)
      ((hub.broadcast engine message).reader joined e client) := by
  unfold broadcast
  cases hbroadcast : hub.broadcasts engine with
  | some current => exact .stay _ _
  | none =>
    dsimp only
    by_cases he : e = engine
    · subst he
      have hidle : hub.onItsWay e client = [] := by simp [onItsWay, hbroadcast]
      convert LogReader.Step.publish (hub.emitted e) (hub.reader joined e client) message hidle
        using 1
      · split_ifs <;> simp
      · by_cases hempty : hub.connections = ∅
        · simp [hempty, reader, taken, onItsWay, hbroadcast]
        · simp [hempty, reader, taken, onItsWay]
    · -- the engines do not share a log
      convert LogReader.Step.stay (hub.emitted e) (hub.reader joined e client) using 1
      · split_ifs <;> simp [he]
      · split_ifs <;> simp [reader, taken, onItsWay, he]

/-- A send hands its message over, or it fails and the client is detached. -/
theorem step_safeSend (engine : Engine) (client : Client) (sent : Bool) (joined : ℕ) (e : Engine)
    (c : Client) :
    LogReader.Step (hub.emitted e) (hub.reader joined e c)
      ((hub.safeSend engine client sent).emitted e)
      ((hub.safeSend engine client sent).reader joined e c) := by
  unfold safeSend
  cases hbroadcast : hub.broadcasts engine with
  | none => exact .stay _ _
  | some broadcast =>
    dsimp only
    by_cases hmem : client ∈ broadcast.sending
    · have hmessage : hub.onItsWay engine client = [broadcast.message] := by
        simp [onItsWay, hbroadcast, hmem]
      have hwithout := hub.reader_without hbroadcast client joined e c
      rw [if_pos hmem]
      cases sent with
      | true =>
        simp only [↓reduceIte, reader_deliver, hwithout]
        by_cases h : e = engine ∧ c = client
        · obtain ⟨rfl, rfl⟩ := h
          refine (LogReader.Step.take (hub.emitted e) (hub.reader joined e c)).congr rfl ?_
          simp [reader, hmessage, fromEngine, taken]
        · -- the message is for another client, or of another engine
          have hnone : (if c = client then
              (fromEngine e (.published engine broadcast.message)).toList else []) = [] := by
            by_cases hc : c = client
            · have he : ¬ engine = e := fun he => h ⟨he.symm, hc⟩
              simp [fromEngine, he]
            · simp [hc]
          refine (LogReader.Step.stay (hub.emitted e) (hub.reader joined e c)).congr rfl ?_
          simp [reader, hnone, h, taken]
      | false =>
        simp only [Bool.false_eq_true, ↓reduceIte, reader_disconnect, hwithout]
        by_cases hc : c = client
        · subst hc
          by_cases he : e = engine
          · refine (LogReader.Step.fail (hub.emitted e) (hub.reader joined e c)).congr rfl ?_
            simp [he]
          · refine (LogReader.Step.detach (hub.emitted e) (hub.reader joined e c)).congr rfl ?_
            simp [reader, he]
        · refine (LogReader.Step.stay (hub.emitted e) (hub.reader joined e c)).congr rfl ?_
          simp [reader, hc]
    · rw [if_neg hmem]
      exact .stay _ _

/-- A drop detaches the reader of its client, and no other. -/
theorem step_disconnect (client : Client) (joined : ℕ) (e : Engine) (c : Client) :
    LogReader.Step (hub.emitted e) (hub.reader joined e c) ((hub.disconnect client).emitted e)
      ((hub.disconnect client).reader joined e c) := by
  rw [reader_disconnect]
  by_cases hc : c = client
  · refine (LogReader.Step.detach (hub.emitted e) (hub.reader joined e c)).congr rfl ?_
    simp [hc]
  · refine (LogReader.Step.stay (hub.emitted e) (hub.reader joined e c)).congr rfl ?_
    simp [hc, reader]

/-- A frame of a client is no message of an engine. -/
theorem step_receive (client : Client) (frame : Frame) (now : ℚ) (sent : Bool) (joined : ℕ)
    (e : Engine) (c : Client) :
    LogReader.Step (hub.emitted e) (hub.reader joined e c)
      ((hub.receive client frame now sent).emitted e)
      ((hub.receive client frame now sent).reader joined e c) := by
  unfold receive
  cases frame with
  | invalid => exact .stay _ _
  | notObject => exact hub.step_disconnect client joined e c
  | object type channel =>
    dsimp only
    cases reply (.object type channel) now with
    | none => exact .stay _ _
    | some reply =>
      cases sent with
      | true =>
        dsimp only
        rw [if_pos rfl, reader_deliver]
        -- the reply is delivered, but it is not of any engine
        refine (LogReader.Step.stay (hub.emitted e) (hub.reader joined e c)).congr rfl ?_
        simp [fromEngine, reader]
      | false => exact hub.step_disconnect client joined e c

omit [DecidableEq Engine] in
/-- An open publishes nothing. -/
theorem emitted_openEndpoint (client : Client) (token : Option Token) (now : ℚ) (accepted : Bool) :
    (hub.openEndpoint lib settings client token now accepted).emitted = hub.emitted := by
  unfold openEndpoint
  split
  · rfl
  · split_ifs <;> rfl

/-- A call adds a client to the registry only when it lets this client in. -/
theorem reader_openEndpoint (client : Client) (token : Option Token) (now : ℚ) (accepted : Bool)
    (joined : ℕ) (e : Engine) {c : Client}
    (hopens : c = client → accepted = true → ¬ (authenticate lib settings token now).isSome) :
    (hub.openEndpoint lib settings client token now accepted).reader joined e c =
      hub.reader joined e c := by
  unfold openEndpoint
  cases hlet : authenticate lib settings token now with
  | none => rfl
  | some claims =>
    cases accepted with
    | true =>
      have hne : c ≠ client := fun h => hopens h rfl (by simp [hlet])
      simp [reader, taken, onItsWay, connect, hne]
    | false => rfl

variable (lib settings)

/-- An event is a step of the log of every engine, for every client that it does not let in. -/
theorem step_reader (event : HubEvent Client Engine Message Token) (joined : ℕ) (e : Engine)
    {c : Client} (hopens : ¬ hub.Opens lib settings c event) :
    LogReader.Step (hub.emitted e) (hub.reader joined e c)
      ((hub.step lib settings event).emitted e)
      ((hub.step lib settings event).reader joined e c) := by
  cases event with
  | opened client token now accepted =>
    unfold step
    dsimp only
    split_ifs with hnot
    · -- an open of another client, or one that lets nobody in
      refine (LogReader.Step.stay (hub.emitted e) (hub.reader joined e c)).congr
        (by rw [emitted_openEndpoint]) ?_
      refine hub.reader_openEndpoint client token now accepted joined e ?_
      rintro rfl haccepted hlet
      exact hopens ⟨rfl, hnot, hlet, haccepted⟩
    · exact .stay _ _
  | received client frame now sent =>
    unfold step
    dsimp only
    split_ifs
    · exact hub.step_receive client frame now sent joined e c
    · exact .stay _ _
  | left client =>
    unfold step
    dsimp only
    split_ifs
    · exact hub.step_disconnect client joined e c
    · exact .stay _ _
  | emitted engine message => exact hub.step_broadcast engine message joined e c
  | sent engine client sent => exact hub.step_safeSend engine client sent joined e c

end Operations

/-! ### The registry -/

/-- The registry is made of clients whose endpoint receives, and a client that has not called has
got nothing. -/
structure Inv (hub : Hub Client Engine Message) : Prop where
  receiving_of_mem : ∀ client ∈ hub.connections, hub.endpoints client = .receiving
  of_notCalled : ∀ client engine, hub.endpoints client = .notCalled →
    hub.taken engine client = [] ∧ hub.onItsWay engine client = []

theorem inv_init : (init : Hub Client Engine Message).Inv where
  receiving_of_mem := by simp [init]
  of_notCalled := by simp [init, taken, onItsWay]

variable {lib settings} {hub : Hub Client Engine Message}

@[simp]
theorem connections_broadcast (engine : Engine) (message : Message) :
    (hub.broadcast engine message).connections = hub.connections := by
  unfold broadcast
  split
  · rfl
  · dsimp only
    split_ifs <;> rfl

/-- Only a send that is due can drop its client. -/
theorem mem_connections_safeSend (engine : Engine) (client : Client) (sent : Bool) (c : Client) :
    c ∈ (hub.safeSend engine client sent).connections ↔
      c ∈ hub.connections ∧ ¬ (client = c ∧ hub.onItsWay engine c ≠ [] ∧ sent = false) := by
  unfold safeSend onItsWay
  cases hbroadcast : hub.broadcasts engine with
  | none => simp
  | some broadcast =>
    by_cases hmem : client ∈ broadcast.sending
    · -- a send that is due is made, and drops the client when it fails
      cases sent with
      | true => simp [hmem, deliver]
      | false =>
        simp only [hmem, ↓reduceIte, Bool.false_eq_true, disconnect, Finset.mem_erase]
        -- the client that was sent to is dropped, and no other
        by_cases hc : client = c
        · subst hc
          simp [hmem]
        · simp [hc, Ne.symm hc]
    · by_cases hc : client = c
      · subst hc
        simp [hmem]
      · simp [hmem, hc]

omit [DecidableEq Engine] in
/-- A client leaves the registry by its own frame only: one that is no object, or one whose answer
cannot be sent. -/
theorem mem_connections_receive (client : Client) (frame : Frame) (now : ℚ) (sent : Bool)
    (c : Client) :
    c ∈ (hub.receive client frame now sent).connections ↔
      c ∈ hub.connections ∧
        ¬ (client = c ∧ (frame = .notObject ∨ (reply frame now).isSome ∧ sent = false)) := by
  have hended : c ∈ (hub.endEndpoint client).connections ↔ c ∈ hub.connections ∧ ¬ client = c := by
    rw [endEndpoint, disconnect, Finset.mem_erase, and_comm, ne_comm]
  unfold receive
  cases frame with
  | invalid => simp [reply]
  | notObject => simpa using hended
  | object type channel =>
    dsimp only
    cases reply (.object type channel) now with
    | none => simp
    | some answer => cases sent <;> simp [deliver, hended]

/-- A client is in the registry after an event when it was and is not dropped, or when it is let
in. -/
theorem mem_connections_step (hinv : hub.Inv) (event : HubEvent Client Engine Message Token)
    (client : Client) :
    client ∈ (hub.step lib settings event).connections ↔
      client ∈ hub.connections ∧ ¬ hub.Drops client event ∨
        hub.Opens lib settings client event := by
  have hreceiving := hinv.receiving_of_mem client
  cases event with
  | opened c token now accepted =>
    simp only [step, Drops, Opens, not_false_eq_true, and_true]
    by_cases hnot : hub.endpoints c = .notCalled
    · rw [if_pos hnot, openEndpoint]
      cases hlet : authenticate lib settings token now with
      | none => simp
      | some claims =>
        cases accepted with
        | true =>
          by_cases hc : c = client
          · subst hc
            simp [connect, hnot]
          · simp [connect, hc, Ne.symm hc]
        | false => simp
    · rw [if_neg hnot]
      by_cases hc : c = client
      · subst hc
        simp [hnot]
      · simp [hc]
  | received c frame now sent =>
    simp only [step, Drops, Opens, or_false]
    by_cases hendpoint : hub.endpoints c = .receiving
    · rw [if_pos hendpoint, mem_connections_receive]
    · -- the endpoint of a client in the registry receives
      have hne : client ∈ hub.connections → ¬ c = client := fun hmem hc =>
        hendpoint (hc ▸ hreceiving hmem)
      rw [if_neg hendpoint]
      exact ⟨fun hmem => ⟨hmem, fun hdrops => hne hmem hdrops.1⟩, And.left⟩
  | left c =>
    simp only [step, Drops, Opens, or_false]
    by_cases hendpoint : hub.endpoints c = .receiving
    · rw [if_pos hendpoint, endEndpoint, disconnect, Finset.mem_erase, and_comm, ne_comm]
    · have hne : client ∈ hub.connections → ¬ c = client := fun hmem hc =>
        hendpoint (hc ▸ hreceiving hmem)
      rw [if_neg hendpoint]
      exact ⟨fun hmem => ⟨hmem, hne hmem⟩, And.left⟩
  | emitted engine message => simp [step, Drops, Opens]
  | sent engine c sent => simp only [step, mem_connections_safeSend, Drops, Opens, or_false]

omit [DecidableEq Engine] in
/-- An event of a running endpoint ends it and takes its client out of the registry, or leaves all
endpoints as they are. -/
theorem receive_endpoints (client : Client) (frame : Frame) (now : ℚ) (sent : Bool) :
    hub.receive client frame now sent = hub.endEndpoint client ∨
      (hub.receive client frame now sent).endpoints = hub.endpoints := by
  unfold receive
  cases frame with
  | invalid => exact .inr rfl
  | notObject => exact .inl rfl
  | object type channel =>
    dsimp only
    cases reply (.object type channel) now with
    | none => exact .inr rfl
    | some answer =>
      cases sent with
      | true => exact .inr rfl
      | false => exact .inl rfl

/-- A broadcast does not end the endpoint of any client. -/
theorem endpoints_broadcast (engine : Engine) (message : Message) :
    (hub.broadcast engine message).endpoints = hub.endpoints := by
  unfold broadcast
  split
  · rfl
  · dsimp only
    split_ifs <;> rfl

/-- Nor does a send to one client. -/
theorem endpoints_safeSend (engine : Engine) (client : Client) (sent : Bool) :
    (hub.safeSend engine client sent).endpoints = hub.endpoints := by
  unfold safeSend
  split
  · rfl
  · dsimp only
    split_ifs <;> rfl

/-- What a broadcast adds to the messages of the engines. -/
theorem mem_emitted_broadcast {engine e : Engine} {message m : Message}
    (hmem : m ∈ (hub.broadcast engine message).emitted e) :
    m ∈ hub.emitted e ∨ e = engine ∧ m = message := by
  by_cases he : e = engine
  · subst he
    unfold broadcast at hmem
    split at hmem
    · exact .inl hmem
    · have hmem' : m ∈ hub.emitted e ++ [message] := by
        dsimp only at hmem
        split_ifs at hmem <;> simpa using hmem
      rcases List.mem_append.mp hmem' with h | h
      · exact .inl h
      · exact .inr ⟨rfl, List.mem_singleton.mp h⟩
  · have hsame : (hub.broadcast engine message).emitted e = hub.emitted e := by
      unfold broadcast
      split
      · rfl
      · dsimp only
        split_ifs <;> simp [he]
    exact .inl (hsame ▸ hmem)

variable (lib settings) in
/-- No other event than a call of `broadcast` is a message of an engine. -/
theorem emitted_step {event : HubEvent Client Engine Message Token}
    (hevent : ∀ engine message, event ≠ .emitted engine message) :
    (hub.step lib settings event).emitted = hub.emitted := by
  cases event with
  | opened client token now accepted =>
    simp only [step]
    split_ifs
    · exact hub.emitted_openEndpoint client token now accepted
    · rfl
  | received client frame now sent =>
    simp only [step]
    split_ifs
    · -- an answer to a frame goes to its own client, not through a log
      unfold receive
      split
      · rfl
      · rfl
      · split
        · rfl
        · split_ifs <;> rfl
    · rfl
  | left client =>
    simp only [step]
    split_ifs <;> rfl
  | emitted engine message => exact absurd rfl (hevent engine message)
  | sent engine client sent =>
    simp only [step, safeSend]
    split
    · rfl
    · split_ifs <;> rfl

variable (lib settings) in
/-- How an event moves the endpoint of a client: it lets the client in, it ends the endpoint, or it
leaves it as it is. -/
theorem endpoints_step (event : HubEvent Client Engine Message Token) (client : Client) :
    hub.Opens lib settings client event ∧
        (hub.step lib settings event).endpoints client = .receiving ∨
      ¬ hub.Opens lib settings client event ∧
        ((hub.step lib settings event).endpoints client = .ended ∧
            (hub.endpoints client = .receiving →
              client ∉ (hub.step lib settings event).connections) ∨
          (hub.step lib settings event).endpoints client = hub.endpoints client) := by
  -- the end of an endpoint removes its client from the registry, and touches no other
  have hended : ∀ c, (hub.endEndpoint c).endpoints client = .ended ∧
        (hub.endpoints client = .receiving → client ∉ (hub.endEndpoint c).connections) ∨
      (hub.endEndpoint c).endpoints client = hub.endpoints client := by
    intro c
    by_cases hc : client = c
    · subst hc
      simp [endEndpoint, disconnect]
    · simp [endEndpoint, disconnect, hc]
  cases event with
  | opened c token now accepted =>
    simp only [step, Opens]
    by_cases hnot : hub.endpoints c = .notCalled
    · -- a first call: a client without a valid token is closed, as is a failed accept
      rw [if_pos hnot, openEndpoint]
      by_cases hc : c = client
      · subst hc
        cases authenticate lib settings token now with
        | none => simp [hnot]
        | some claims => cases accepted <;> simp [hnot]
      · cases authenticate lib settings token now with
        | none => simp [hc, Ne.symm hc]
        | some claims => cases accepted <;> simp [hc, Ne.symm hc]
    · -- an endpoint is called once
      rw [if_neg hnot]
      exact .inr ⟨fun h => hnot (h.1 ▸ h.2.1), .inr rfl⟩
  | received c frame now sent =>
    refine .inr ⟨id, ?_⟩
    unfold step
    dsimp only
    split_ifs
    · -- an answer that cannot be sent ends the endpoint
      rcases hub.receive_endpoints c frame now sent with h | h
      · rw [h]
        exact hended c
      · exact .inr (by rw [h])
    · exact .inr rfl
  | left c =>
    refine .inr ⟨id, ?_⟩
    unfold step
    dsimp only
    split_ifs
    · exact hended c
    · exact .inr rfl
  | emitted engine message => exact .inr ⟨id, .inr (by rw [step, endpoints_broadcast])⟩
  | sent engine c sent => exact .inr ⟨id, .inr (by rw [step, endpoints_safeSend])⟩

/-- Every event keeps the invariant. -/
theorem inv_step (hinv : hub.Inv) (event : HubEvent Client Engine Message Token) :
    (hub.step lib settings event).Inv where
  receiving_of_mem client hmem := by
    have hmove := hub.endpoints_step lib settings event client
    have hbefore := (mem_connections_step hinv event client).mp hmem
    -- who was in the registry is still there, or has just been let in
    rcases hmove with ⟨-, hreceiving⟩ | ⟨hopens, ⟨-, hout⟩ | hsame⟩
    · exact hreceiving
    · have hmember := (hbefore.resolve_right hopens).1
      exact absurd hmem (hout (hinv.receiving_of_mem client hmember))
    · rw [hsame]
      exact hinv.receiving_of_mem client (hbefore.resolve_right hopens).1
  of_notCalled client engine hnot := by
    have hmove := hub.endpoints_step lib settings event client
    rw [hnot] at hmove
    -- an endpoint that is not called now was not called before
    obtain ⟨hopens, hbefore⟩ : ¬ hub.Opens lib settings client event ∧
        hub.endpoints client = .notCalled := by
      rcases hmove with ⟨-, h⟩ | ⟨hopens, ⟨h, -⟩ | h⟩
      · exact absurd h (by simp)
      · exact absurd h (by simp)
      · exact ⟨hopens, h.symm⟩
    obtain ⟨htaken, hidle⟩ := hinv.of_notCalled client engine hbefore
    have hout : client ∉ hub.connections := fun hmem =>
      absurd (hinv.receiving_of_mem client hmem) (by simp [hbefore])
    -- a client outside the registry is handed nothing
    have hreader := (hub.step_reader lib settings event 0 engine hopens).eq_of_detached
      (by simp [reader, hout]) hidle
    exact ⟨(congrArg LogReader.taken hreader).trans htaken,
      (congrArg LogReader.onItsWay hreader).trans hidle⟩

/-! ### Whole runs -/

variable (lib settings)

/-- Every run keeps the invariant of the hub. -/
theorem inv_run (events : List (HubEvent Client Engine Message Token)) :
    (run lib settings events).Inv := by
  unfold run
  exact Runs.foldl_invariant (A := fun _ => True) (J := Inv)
    (fun _ event _ hinv => inv_step hinv event) inv_init fun _ _ => trivial

/-- The registry holds exactly the clients that were let in and have not been dropped since: by the
end of their own endpoint, or by a send to them that failed. -/
theorem mem_connections_iff (events : List (HubEvent Client Engine Message Token))
    (client : Client) :
    client ∈ (run lib settings events).connections ↔
      ∃ before event after, events = before ++ event :: after ∧
        (run lib settings before).Opens lib settings client event ∧
        Runs.EveryStep (step lib settings) (fun hub event => ¬ hub.Drops client event)
          (run lib settings (before ++ [event])) after := by
  induction events using List.reverseRecOn with
  | nil => simp [run, init]
  | append_singleton events last ih =>
    have hlast : run lib settings (events ++ [last]) =
        (run lib settings events).step lib settings last := by
      simp [run]
    rw [hlast, mem_connections_step (inv_run lib settings events), ih]
    constructor
    · rintro (⟨⟨before, event, after, rfl, hopens, hafter⟩, hkept⟩ | hopens)
      · refine ⟨before, event, after ++ [last], by simp, hopens, ?_⟩
        rw [Runs.everyStep_append, Runs.everyStep_cons]
        refine ⟨hafter, ?_, Runs.everyStep_nil⟩
        simpa [run] using hkept
      · exact ⟨events, last, [], rfl, hopens, Runs.everyStep_nil⟩
    · rintro ⟨before, event, after, heq, hopens, hafter⟩
      rcases List.eq_nil_or_concat after with rfl | ⟨rest, x, rfl⟩
      · obtain ⟨rfl, hevent⟩ := List.append_inj' heq rfl
        rw [List.singleton_inj] at hevent
        exact .inr (hevent ▸ hopens)
      · rw [List.concat_eq_append] at heq hafter
        have hsplit : events ++ [last] = (before ++ event :: rest) ++ [x] := by simpa using heq
        obtain ⟨rfl, hevent⟩ := List.append_inj' hsplit rfl
        rw [List.singleton_inj] at hevent
        subst hevent
        rw [Runs.everyStep_append, Runs.everyStep_cons] at hafter
        refine .inl ⟨⟨before, event, rest, rfl, hopens, hafter.1⟩, ?_⟩
        simpa [run] using hafter.2.1

/-- A client that has called reads the log of an engine, from the point it was let in at. -/
structure Reads (hub : Hub Client Engine Message) (joined : ℕ) (engine : Engine)
    (client : Client) : Prop where
  called : hub.endpoints client ≠ .notCalled
  upToDate : (hub.reader joined engine client).UpToDate (hub.emitted engine)

/-- A client that is let in joins the log of every engine. -/
theorem reads_of_opens {hub : Hub Client Engine Message} (hinv : hub.Inv)
    {event : HubEvent Client Engine Message Token} {client : Client}
    (hopens : hub.Opens lib settings client event) (engine : Engine) :
    (hub.step lib settings event).Reads (hub.emitted engine).length engine client := by
  cases event with
  | opened c token now accepted =>
    obtain ⟨rfl, hnot, hlet, rfl⟩ := hopens
    obtain ⟨claims, hclaims⟩ := Option.isSome_iff_exists.mp hlet
    obtain ⟨htaken, hidle⟩ := hinv.of_notCalled c engine hnot
    simp only [step, hnot, ↓reduceIte, openEndpoint, hclaims]
    refine ⟨by simp, ?_⟩
    convert LogReader.upToDate_join (hub.emitted engine) using 1
    · rfl
    · simp only [reader, LogReader.join, LogReader.mk.injEq, true_and]
      exact ⟨htaken, hidle, by simp [connect]⟩
  | _ => exact absurd hopens (by simp [Opens])

/-- Every event keeps a client that has joined reading the log of an engine. -/
theorem reads_step {hub : Hub Client Engine Message} {joined : ℕ} {engine : Engine}
    {client : Client} (h : hub.Reads joined engine client)
    (event : HubEvent Client Engine Message Token) :
    (hub.step lib settings event).Reads joined engine client := by
  -- an endpoint is called only once
  have hnot : ¬ hub.Opens lib settings client event := fun hopens => by
    cases event with
    | opened c token now accepted => exact h.called hopens.2.1
    | _ => exact hopens
  refine ⟨?_, (hub.step_reader lib settings event joined engine hnot).upToDate h.upToDate⟩
  rcases hub.endpoints_step lib settings event client with
    ⟨hopens, -⟩ | ⟨-, ⟨hended, -⟩ | hsame⟩
  · exact absurd hopens hnot
  · simp [hended]
  · rw [hsame]
    exact h.called

/-- From the moment it is let in, a client is handed a prefix of what an engine broadcasts, in the
order of the engine and nothing twice; while it is in the registry it is handed all of it, up to
the message that is on its way. -/
theorem taken_eq_published (before after : List (HubEvent Client Engine Message Token))
    (event : HubEvent Client Engine Message Token) (client : Client) (engine : Engine)
    (hopens : (run lib settings before).Opens lib settings client event) :
    let hub := run lib settings (before ++ event :: after)
    let published := (hub.emitted engine).drop ((run lib settings before).emitted engine).length
    hub.taken engine client <+: published ∧
      (client ∈ hub.connections →
        hub.taken engine client ++ hub.onItsWay engine client = published) := by
  have hstart := reads_of_opens lib settings (inv_run lib settings before) hopens engine
  have hsplit : run lib settings (before ++ event :: after) =
      after.foldl (step lib settings) ((run lib settings before).step lib settings event) := by
    simp [run]
  have hreads := Runs.foldl_invariant (A := fun _ => True)
    (J := fun hub => Reads hub ((run lib settings before).emitted engine).length engine client)
    (fun _ event _ h => reads_step lib settings h event) hstart fun event (_ : event ∈ after) =>
    trivial
  rw [← hsplit] at hreads
  exact ⟨(List.prefix_append _ _).trans hreads.upToDate.isPrefix,
    fun hmem => hreads.upToDate.eq_of_attached (by simpa [reader] using hmem)⟩

/-- A client is only ever handed what an engine has broadcast. -/
theorem taken_subset_emitted (events : List (HubEvent Client Engine Message Token))
    (client : Client) (engine : Engine) :
    (run lib settings events).taken engine client ⊆ (run lib settings events).emitted engine := by
  -- what is on its way is carried along with what was taken
  have hstep : ∀ (hub : Hub Client Engine Message) (event : HubEvent Client Engine Message Token),
      True → hub.Inv ∧ hub.taken engine client ++ hub.onItsWay engine client ⊆ hub.emitted engine →
      (hub.step lib settings event).Inv ∧
        (hub.step lib settings event).taken engine client ++
          (hub.step lib settings event).onItsWay engine client ⊆
            (hub.step lib settings event).emitted engine := by
    rintro hub event - ⟨hinv, hsubset⟩
    refine ⟨inv_step hinv event, ?_⟩
    by_cases hopens : hub.Opens lib settings client event
    · -- a client that is let in reads the log from there on
      have hreads := (reads_of_opens lib settings hinv hopens engine).upToDate
      exact List.Subset.trans hreads.isPrefix.subset (List.drop_subset _ _)
    · exact (hub.step_reader lib settings event 0 engine hopens).subset hsubset
  have hrun := Runs.foldl_invariant hstep
    (s := init) ⟨inv_init, by simp [init, taken, onItsWay]⟩
    fun event (_ : event ∈ events) => trivial
  exact (List.append_subset.mp hrun.2).1

end Hub

end Manager

/-- A run with one engine and two clients: the first is let in between two broadcasts and stays, a
send to the second fails. -/
def lateAndLost : List (HubEvent ℕ Unit ℕ Claims) :=
  let token := accessClaims {} 1 "first" 0
  [.opened 2 (some token) 1 true, .emitted () 10, .opened 1 (some token) 1 true,
   .sent () 2 true, .emitted () 11, .sent () 2 false, .sent () 1 true, .emitted () 12]

/-- The first client is handed what is broadcast after it was let in. -/
theorem taken_lateAndLost :
    (Hub.run transparentJwt {} lateAndLost).taken () 1 ++
      (Hub.run transparentJwt {} lateAndLost).onItsWay () 1 = [11, 12] := by
  have hpublished : ((Hub.run transparentJwt {} lateAndLost).emitted ()).drop
      ((Hub.run transparentJwt {} (lateAndLost.take 2)).emitted ()).length = [11, 12] := by
    decide +kernel
  rw [← hpublished]
  exact (Hub.taken_eq_published transparentJwt {} (lateAndLost.take 2) (lateAndLost.drop 3)
    (.opened 1 (some (accessClaims {} 1 "first" 0)) 1 true) 1 ()
    ⟨rfl, by decide +kernel, by decide +kernel, rfl⟩).2 (by decide +kernel)

end TradingSimulator.Websocket
