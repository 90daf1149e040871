import TradingSimulator.Market.CandleEngine
import TradingSimulator.Market.Quotes
import TradingSimulator.Websocket.Manager

/-!
# The market stream

The background engines that write the market state and broadcast it to the clients: the market feed
(`app/market/market_data_engine.py`), the candle engine (`app/market/candle_engine.py`) and the
market stream (`app/websocket/market_stream.py`), together with the other writers of the market
state (`app/market/market_state.py`): the route `GET /market/{symbol}` and the signal engine.

All of them run interleaved with each other and with the clients of the connection manager, at every
`await`. An engine that awaits a broadcast does nothing else. The route runs in a thread of its own,
and the market state may change between its read and its write.
-/

namespace TradingSimulator.MarketStream

open Websocket

/-- `SYMBOLS` of the market feed and of the candle engine. -/
def SYMBOLS : List String :=
  ["AAPL", "TSLA", "MSFT", "NVDA", "AMZN", "GOOGL", "META", "NFLX", "AMD", "INTC", "UBER"]

/-- The tasks that broadcast. -/
inductive Engine where
  | marketFeed
  | candle
  | marketStream
  deriving DecidableEq

/-- The record that `process_symbol` returns. -/
structure PriceUpdate where
  symbol : String
  price : ℚ
  timestamp : ℚ
  deriving DecidableEq

/-- An entry of a full snapshot. -/
structure SymbolSnapshot where
  symbol : String
  price : ℚ
  signal : String
  candles : List (Candle ℚ)
  timestamp : ℚ
  deriving DecidableEq

/-- The messages of the engines. -/
inductive MarketMessage where
  | marketBatch (payload : List PriceUpdate)
  | candleUpdate (symbol : String) (timeframe : Timeframe) (candles : List (Candle ℚ))
  | marketUpdate (data : List SymbolSnapshot)
  deriving DecidableEq

/-- A round of the candle engine: its time, the symbols it has not come to and the candles it has
still to broadcast. -/
structure CandleTurn where
  now : ℕ
  symbols : List String
  broadcasts : List (String × Timeframe)

/-- What a request of `GET /market/{symbol}` has read when it asks the provider. -/
structure QuoteRead where
  symbol : String
  cached : Option ℚ × Option ℚ
  now : ℚ

/-- The market state, the progress of the engines and the connection manager. -/
structure Server (Client : Type) where
  market : MarketState ℚ
  /-- The requests of the route that are running. -/
  reads : ℕ → Option QuoteRead
  /-- The keys of `prices`, in the order of the dictionary. -/
  symbols : List String
  candles : CandleStore ℚ
  signals : String → Option String
  /-- The results of `process_symbol` in this round of the feed. -/
  feed : String → Option (Option PriceUpdate)
  turn : CandleTurn
  hub : Hub Client Engine MarketMessage

/-- Where one of the tasks goes on. -/
inductive ServerEvent (Client Token : Type) where
  /-- `process_symbol` of the feed is through. -/
  | processed (symbol : String) (now : ℚ)
  /-- A round of the feed is over. -/
  | feedBatch
  /-- `GET /market/{symbol}`, up to the call of the provider. -/
  | marketSymbol (request : ℕ) (symbol : String) (now : ℚ)
  /-- The provider has answered the request. -/
  | marketSettled (request : ℕ)
  | updateSignal (symbol signal : String)
  /-- The candle engine starts a round. -/
  | candleTurn (now : ℕ)
  | candleNext
  | streamTurn (now : ℚ)
  /-- A client, or a send to it. -/
  | socket (event : HubEvent Client Engine MarketMessage Token)

variable {Client Token : Type}

def Server.init : Server Client where
  market := .empty
  reads := fun _ => none
  symbols := []
  candles := fun _ => .empty
  signals := fun _ => none
  feed := fun _ => none
  turn := ⟨0, [], []⟩
  hub := .init

/-- `update_signal`. -/
def validSignal (signal : String) : String :=
  if signal ∈ ["BUY", "SELL", "HOLD"] then signal else "HOLD"

/-- `[-100:]`. -/
def lastCandles (candles : List (Candle ℚ)) : List (Candle ℚ) := candles.rtake 100

namespace Server

/-- The price dictionary after a call that may have set the price of a symbol. -/
def withMarket (server : Server Client) (symbol : String) (market : MarketState ℚ) :
    Server Client :=
  { server with
    market
    symbols :=
      if (market.prices symbol).isSome ∧ symbol ∉ server.symbols then server.symbols ++ [symbol]
      else server.symbols }

/-- What a request reads. -/
def readQuote (upper : String → String) (server : Server Client) (symbol : String) (now : ℚ) :
    QuoteRead :=
  ⟨upper symbol, server.market.getPriceWithTime (upper symbol), now⟩

/-- The rest of the route: a price is stored when the provider has one. -/
def settle (provider : Provider) (server : Server Client) (read : QuoteRead) : Server Client :=
  match provider read.symbol read.now with
  | none => server
  | some providerPrice =>
    server.withMarket read.symbol
      (server.market.updatePrice read.symbol (settledPrice read.cached providerPrice read.now)
        read.now)

/-- `_build_payload`. -/
def buildPayload (server : Server Client) (now : ℚ) : MarketMessage :=
  .marketUpdate <| server.symbols.filterMap fun symbol =>
    (server.market.prices symbol).map fun price =>
      { symbol
        price
        signal := (server.signals symbol).getD "HOLD"
        candles := lastCandles (server.candles (symbol, .m1)).candles
        timestamp := now }

/-- The updates of a round of the feed, in the order of the `gather`. -/
def updates (server : Server Client) : List PriceUpdate :=
  SYMBOLS.filterMap fun symbol => (server.feed symbol).join

section Step

variable [DecidableEq Client]

/-- `await manager.broadcast(message)`. -/
def emit (server : Server Client) (engine : Engine) (message : MarketMessage) : Server Client :=
  { server with hub := server.hub.broadcast engine message }

/-- The candle engine goes on: with the next broadcast, or with the next symbol. -/
def candleNext (server : Server Client) : Server Client :=
  match server.turn.broadcasts, server.turn.symbols with
  | (symbol, timeframe) :: broadcasts, _ =>
    let server := { server with turn := { server.turn with broadcasts } }
    let candles := (server.candles (symbol, timeframe)).candles
    if candles = [] then server
    else server.emit .candle (.candleUpdate symbol timeframe (lastCandles candles))
  | [], symbol :: symbols =>
    let server := { server with turn := { server.turn with symbols } }
    match server.market.getPrice symbol with
    | none => server
    | some price =>
      { server with
        candles := foldTick (some MAX_CANDLES) server.candles ⟨symbol, price, server.turn.now⟩
        turn := { server.turn with broadcasts := timeframes.map fun tf => (symbol, tf) } }
  | [], [] => server

variable (lib : JwtLib Token) (settings : Settings) (upper : String → String) (provider : Provider)

/-- The state after an event. An event that cannot occur has no effect. -/
def step (server : Server Client) : ServerEvent Client Token → Server Client
  | .processed symbol now =>
    if symbol ∈ SYMBOLS ∧ server.feed symbol = none ∧ server.hub.broadcasts .marketFeed = none then
      let result := processSymbol provider server.market symbol now
      { server.withMarket symbol result.1 with
        feed := Function.update server.feed symbol
          (some (result.2.map fun price => ⟨symbol, price, now⟩)) }
    else server
  | .feedBatch =>
    if ∀ symbol ∈ SYMBOLS, server.feed symbol ≠ none then
      let server' := { server with feed := fun _ => none }
      if server.updates = [] then server'
      else server'.emit .marketFeed (.marketBatch server.updates)
    else server
  | .marketSymbol request symbol now =>
    { server with
      reads := Function.update server.reads request (some (server.readQuote upper symbol now)) }
  | .marketSettled request =>
    match server.reads request with
    | none => server
    | some read =>
      { server.settle provider read with reads := Function.update server.reads request none }
  | .updateSignal symbol signal =>
    { server with signals := Function.update server.signals symbol (some (validSignal signal)) }
  | .candleTurn now =>
    if server.turn.symbols = [] ∧ server.turn.broadcasts = [] ∧
        server.hub.broadcasts .candle = none then
      { server with turn := ⟨now, SYMBOLS, []⟩ }
    else server
  | .candleNext => if server.hub.broadcasts .candle = none then server.candleNext else server
  | .streamTurn now => server.emit .marketStream (server.buildPayload now)
  -- only the engines broadcast
  | .socket (.emitted _ _) => server
  | .socket event => { server with hub := server.hub.step lib settings event }

end Step

end Server

end TradingSimulator.MarketStream
