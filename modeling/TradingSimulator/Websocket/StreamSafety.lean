import Mathlib.Data.List.Pairwise
import TradingSimulator.Websocket.MarketStream

/-!
# What the clients receive

Every message that reaches a client is well formed, in whatever order the engines, the requests and
the clients take their steps (`wellFormed_of_mem_inbox`): prices come from the provider, each symbol
occurs once, signals are one of the three, and candles are in the order of their buckets with their
prices between `low` and `high`.

`Sound` is the invariant of the server behind it. What can be said of a price is left open: `P` is
any property of the prices that the provider quotes.
-/

namespace TradingSimulator.MarketStream

open Websocket

section Safety

variable {Client Token : Type} (P : String → ℚ → Prop)

/-- A candle of a symbol, with its prices in their order. -/
structure CandleOk (symbol : String) (timeframe : Timeframe) (candle : Candle ℚ) : Prop where
  dvd_time : timeframe.seconds ∣ candle.time
  low_le_open : candle.low ≤ candle.openPrice
  open_le_high : candle.openPrice ≤ candle.high
  low_le_close : candle.low ≤ candle.close
  close_le_high : candle.close ≤ candle.high
  prices : P symbol candle.openPrice ∧ P symbol candle.high ∧ P symbol candle.low ∧
    P symbol candle.close

/-- Candles of a symbol in the order of their buckets. -/
structure CandlesOk (symbol : String) (timeframe : Timeframe) (candles : List (Candle ℚ)) :
    Prop where
  candleOk : ∀ candle ∈ candles, CandleOk P symbol timeframe candle
  sorted : (candles.map Candle.time).Pairwise (· < ·)

/-- What the clients rely on in a message of an engine. -/
def WellFormed : Engine → MarketMessage → Prop
  | .marketFeed, .marketBatch payload =>
    payload ≠ [] ∧ (payload.map PriceUpdate.symbol).Nodup ∧
      ∀ update ∈ payload, update.symbol ∈ SYMBOLS ∧ P update.symbol update.price ∧ 0 < update.price
  | .candle, .candleUpdate symbol timeframe candles =>
    candles ≠ [] ∧ candles.length ≤ 100 ∧ CandlesOk P symbol timeframe candles
  | .marketStream, .marketUpdate data =>
    (data.map SymbolSnapshot.symbol).Nodup ∧ ∀ entry ∈ data, P entry.symbol entry.price ∧
      entry.signal ∈ ["BUY", "SELL", "HOLD"] ∧ entry.candles.length ≤ 100 ∧
      CandlesOk P entry.symbol .m1 entry.candles
  | _, _ => False

/-- The candles of a symbol and timeframe, of which none is later than `now`. -/
structure SeriesOk (symbol : String) (timeframe : Timeframe) (now : ℕ) (series : CandleSeries ℚ) :
    Prop where
  bars : CandlesOk P symbol timeframe series.bars
  opened : series.active = none → series.candles = []
  time_le : ∀ candle ∈ series.bars, candle.time ≤ now

/-- The invariant of the server. -/
structure Sound (server : Server Client) : Prop where
  price : ∀ symbol price, server.market.prices symbol = some price → P symbol price
  /-- What a request has read was a price of its symbol once. -/
  reads : ∀ request read, server.reads request = some read →
    ∀ price ∈ read.cached.1, P read.symbol price
  symbols_nodup : server.symbols.Nodup
  signals : ∀ symbol signal, server.signals symbol = some signal →
    signal ∈ ["BUY", "SELL", "HOLD"]
  feed : ∀ symbol update, server.feed symbol = some (some update) →
    update.symbol = symbol ∧ P symbol update.price ∧ 0 < update.price
  candles : ∀ symbol timeframe,
    SeriesOk P symbol timeframe server.turn.now (server.candles (symbol, timeframe))
  emitted : ∀ engine, ∀ message ∈ server.hub.emitted engine, WellFormed P engine message

/-- The clock of the candle engine does not go back. -/
def ClockForward (server : Server Client) : ServerEvent Client Token → Prop
  | .candleTurn now => server.turn.now ≤ now
  | _ => True

/-- Before anything has happened. -/
theorem sound_init : Sound P (Server.init : Server Client) where
  price := by simp [Server.init, MarketState.empty]
  reads := by simp [Server.init]
  symbols_nodup := List.nodup_nil
  signals := by simp [Server.init]
  feed := by simp [Server.init]
  candles symbol timeframe :=
    ⟨⟨by simp [Server.init, CandleSeries.empty, CandleSeries.bars],
      by simp [Server.init, CandleSeries.empty, CandleSeries.bars]⟩,
      fun _ => rfl, by simp [Server.init, CandleSeries.empty, CandleSeries.bars]⟩
  emitted := by simp [Server.init, Hub.init]

variable {P}

/-! ### Candles -/

/-- Some of the candles are well formed as well. -/
theorem CandlesOk.sublist {symbol : String} {timeframe : Timeframe}
    {candles candles' : List (Candle ℚ)} (h : CandlesOk P symbol timeframe candles)
    (hsub : candles'.Sublist candles) : CandlesOk P symbol timeframe candles' where
  candleOk candle hmem := h.candleOk candle (hsub.subset hmem)
  sorted := h.sorted.sublist (hsub.map Candle.time)

/-- The last candles of a list. -/
theorem CandlesOk.lastCandles {symbol : String} {timeframe : Timeframe}
    {candles : List (Candle ℚ)} (h : CandlesOk P symbol timeframe candles) :
    CandlesOk P symbol timeframe (lastCandles candles) :=
  h.sublist (List.drop_sublist _ _)

theorem length_lastCandles_le (candles : List (Candle ℚ)) : (lastCandles candles).length ≤ 100 := by
  rw [lastCandles, List.rtake_eq_reverse_take_reverse, List.length_reverse]
  exact List.length_take_le _ _

/-- Where there are candles, there are last ones. -/
theorem lastCandles_ne_nil {candles : List (Candle ℚ)} (h : candles ≠ []) :
    lastCandles candles ≠ [] := by
  intro hnil
  rw [lastCandles, List.rtake_eq_reverse_take_reverse, List.reverse_eq_nil_iff] at hnil
  simp [h] at hnil

/-- A candle of one tick lies in its bucket and has one price. -/
theorem candleOk_ofTick {symbol : String} (timeframe : Timeframe) {price : ℚ}
    (hprice : P symbol price) (ts : ℕ) :
    CandleOk P symbol timeframe (Candle.ofTick timeframe.seconds price ts) where
  dvd_time := Nat.dvd_sub_mod ts
  low_le_open := le_rfl
  open_le_high := le_rfl
  low_le_close := le_rfl
  close_le_high := le_rfl
  prices := ⟨hprice, hprice, hprice, hprice⟩

/-- A candle takes a tick of its bucket in. -/
theorem CandleOk.tick {symbol : String} {timeframe : Timeframe} {candle : Candle ℚ}
    (h : CandleOk P symbol timeframe candle) {price : ℚ} (hprice : P symbol price) :
    CandleOk P symbol timeframe
      { candle with
        high := max candle.high price
        low := min candle.low price
        close := price } where
  dvd_time := h.dvd_time
  low_le_open := (min_le_left _ _).trans h.low_le_open
  open_le_high := h.open_le_high.trans (le_max_left _ _)
  low_le_close := min_le_right _ _
  close_le_high := le_max_right _ _
  prices := by
    obtain ⟨hopen, hhigh, hlow, -⟩ := h.prices
    refine ⟨hopen, ?_, ?_, hprice⟩
    · exact max_rec' (P symbol) hhigh hprice
    · exact min_rec' (P symbol) hlow hprice

/-- A candle of another bucket than that of the clock is of an earlier one. -/
theorem time_lt_bucketStart {time tfSeconds now : ℕ} (hdvd : tfSeconds ∣ time) (hle : time ≤ now)
    (hne : time ≠ bucketStart now tfSeconds) : time < bucketStart now tfSeconds := by
  have hbucket : bucketStart now tfSeconds = tfSeconds * (now / tfSeconds) := by
    have hdiv := Nat.div_add_mod now tfSeconds
    rw [bucketStart]
    omega
  rw [hbucket] at hne ⊢
  obtain ⟨k, rfl⟩ := hdvd
  refine lt_of_le_of_ne (Nat.mul_le_mul_left _ ?_) hne
  rcases Nat.eq_zero_or_pos tfSeconds with rfl | hpos
  · simp at hne
  · exact (Nat.le_div_iff_mul_le hpos).mpr (by rwa [Nat.mul_comm])

/-- A later candle may join at the end. -/
theorem CandlesOk.concat {symbol : String} {timeframe : Timeframe} {candles : List (Candle ℚ)}
    (h : CandlesOk P symbol timeframe candles) {candle : Candle ℚ}
    (hcandle : CandleOk P symbol timeframe candle) (hlater : ∀ c ∈ candles, c.time < candle.time) :
    CandlesOk P symbol timeframe (candles ++ [candle]) where
  candleOk c hmem := by
    rcases List.mem_append.mp hmem with hmem | hmem
    · exact h.candleOk c hmem
    · rwa [List.mem_singleton.mp hmem]
  sorted := by
    rw [List.map_append, List.pairwise_append]
    refine ⟨h.sorted, List.pairwise_singleton _ _, fun time htime time' htime' => ?_⟩
    obtain ⟨c, hmem, rfl⟩ := List.mem_map.mp htime
    rw [List.map_singleton, List.mem_singleton] at htime'
    exact htime' ▸ hlater c hmem

/-- What precedes the last of the candles is earlier. -/
theorem CandlesOk.lt_last {symbol : String} {timeframe : Timeframe} {candles : List (Candle ℚ)}
    {last : Candle ℚ} (h : CandlesOk P symbol timeframe (candles ++ [last])) :
    ∀ c ∈ candles, c.time < last.time := by
  intro c hmem
  have hsorted := h.sorted
  rw [List.map_append, List.pairwise_append] at hsorted
  exact hsorted.2.2 _ (List.mem_map_of_mem hmem) _ (by simp)

/-- A tick at the time of the clock. -/
theorem SeriesOk.update {symbol : String} {timeframe : Timeframe} {now : ℕ}
    {series : CandleSeries ℚ} (h : SeriesOk P symbol timeframe now series) {price : ℚ}
    (hprice : P symbol price) (max : ℕ) :
    SeriesOk P symbol timeframe now
      (series.update (some max) timeframe.seconds price now) := by
  have hnew := candleOk_ofTick timeframe hprice now
  have htime : (Candle.ofTick timeframe.seconds price now).time ≤ now := Nat.sub_le _ _
  obtain ⟨hbars, hopened, hle⟩ := h
  unfold CandleSeries.bars at hbars hle
  unfold CandleSeries.update
  cases hactive : series.active with
  | none =>
    rw [hopened hactive]
    refine ⟨⟨?_, ?_⟩, nofun, ?_⟩
    · simpa [CandleSeries.bars] using hnew
    · simp [CandleSeries.bars]
    · simpa [CandleSeries.bars] using htime
  | some candle =>
    rw [hactive, Option.toList_some] at hbars hle
    have hcandle := hbars.candleOk candle (by simp)
    have hlast := hbars.lt_last
    dsimp only
    split_ifs with hbucket
    · -- the bucket is over: its candle joins the closed ones
      have hlt := time_lt_bucketStart hcandle.dvd_time (hle candle (by simp)) hbucket
      have hsub : (addCandle (some max) series.candles candle).Sublist
          (series.candles ++ [candle]) := List.drop_sublist _ _
      have hearlier : ∀ c ∈ series.candles ++ [candle],
          c.time < bucketStart now timeframe.seconds := by
        intro c hmem
        rcases List.mem_append.mp hmem with hmem | hmem
        · exact (hlast c hmem).trans hlt
        · rwa [List.mem_singleton.mp hmem]
      refine ⟨?_, nofun, fun c hmem => ?_⟩
      · exact (hbars.sublist hsub).concat hnew fun c hmem => hearlier c (hsub.subset hmem)
      · rcases List.mem_append.mp hmem with hmem | hmem
        · exact hle c (hsub.subset hmem)
        · rw [List.mem_singleton.mp hmem]
          exact htime
    · refine ⟨?_, nofun, fun c hmem => ?_⟩
      · exact (hbars.sublist (List.sublist_append_left _ _)).concat (hcandle.tick hprice) hlast
      · rcases List.mem_append.mp hmem with hmem | hmem
        · exact hle c (List.mem_append_left _ hmem)
        · rw [List.mem_singleton.mp hmem]
          exact hle candle (by simp)

/-- A later time of the clock. -/
theorem SeriesOk.mono {symbol : String} {timeframe : Timeframe} {now now' : ℕ}
    {series : CandleSeries ℚ} (h : SeriesOk P symbol timeframe now series) (hle : now ≤ now') :
    SeriesOk P symbol timeframe now' series :=
  ⟨h.bars, h.opened, fun candle hmem => (h.time_le candle hmem).trans hle⟩

/-! ### The writers of the market state -/

/-- A write that keeps the prices of the provider keeps everything else. -/
theorem Sound.withMarket {server : Server Client} (h : Sound P server) (symbol : String)
    {market : MarketState ℚ}
    (hmarket : ∀ symbol price, market.prices symbol = some price → P symbol price) :
    Sound P (server.withMarket symbol market) where
  price := hmarket
  reads := h.reads
  symbols_nodup := by
    unfold Server.withMarket
    dsimp only
    -- a symbol is listed when its first price is stored
    split_ifs with hnew
    · exact h.symbols_nodup.append (List.nodup_singleton _) (by simpa using hnew.2)
    · exact h.symbols_nodup
  signals := h.signals
  feed := h.feed
  candles := h.candles
  emitted := h.emitted

/-- A price that is stored replaces the one of its symbol. -/
theorem price_updatePrice {market : MarketState ℚ}
    (hmarket : ∀ symbol price, market.prices symbol = some price → P symbol price) {symbol : String}
    {price : ℚ} (hprice : P symbol price) (now : ℚ) :
    ∀ s p, (market.updatePrice symbol price now).prices s = some p → P s p := by
  intro s p hp
  by_cases hs : s = symbol
  · subst hs
    have heq : some price = some p := by simpa [MarketState.updatePrice] using hp
    rwa [← Option.some.inj heq]
  · exact hmarket s p (by simpa [MarketState.updatePrice, hs] using hp)

variable {provider : Provider}

/-- The feed stores only positive prices of the provider. -/
theorem processSymbol_spec (hP : ∀ symbol now price, provider symbol now = some price →
      P symbol price) {market : MarketState ℚ}
    (hmarket : ∀ symbol price, market.prices symbol = some price → P symbol price)
    (symbol : String) (now : ℚ) :
    (∀ s p, (processSymbol provider market symbol now).1.prices s = some p → P s p) ∧
      ∀ price, (processSymbol provider market symbol now).2 = some price →
        P symbol price ∧ 0 < price := by
  unfold processSymbol
  cases hprice : extractPrice (provider symbol now) with
  | none => exact ⟨hmarket, nofun⟩
  | some price =>
    rw [extractPrice, Option.filter_eq_some_iff] at hprice
    have hquoted := hP symbol now price hprice.1
    refine ⟨price_updatePrice hmarket hquoted now, fun p hp => ?_⟩
    rw [← Option.some.inj hp]
    exact ⟨hquoted, by simpa using hprice.2⟩

/-- The route settles on the price of the provider, or on the one that it has read. -/
theorem settledPrice_spec {P : ℚ → Prop} {cached : Option ℚ × Option ℚ}
    (hcached : ∀ price ∈ cached.1, P price) {providerPrice : ℚ} (hprovider : P providerPrice)
    (now : ℚ) : P (settledPrice cached providerPrice now) := by
  unfold settledPrice
  cases hprice : cached.1 with
  | none => exact hprovider
  | some price =>
    dsimp only
    split_ifs
    · exact hprovider
    · exact hcached price hprice

/-- The route stores a price of the provider, whenever it was quoted. -/
theorem Sound.settle (hP : ∀ symbol now price, provider symbol now = some price → P symbol price)
    {server : Server Client} (h : Sound P server) {read : QuoteRead}
    (hread : ∀ price ∈ read.cached.1, P read.symbol price) :
    Sound P (server.settle provider read) := by
  unfold Server.settle
  cases hprovider : provider read.symbol read.now with
  | none => exact h
  | some providerPrice =>
    refine h.withMarket read.symbol (price_updatePrice h.price ?_ read.now)
    exact settledPrice_spec hread (hP _ _ providerPrice hprovider) read.now

/-- A request that nothing comes between is the route. -/
theorem market_settle_readQuote (upper : String → String) (server : Server Client) (symbol : String)
    (now : ℚ) :
    (server.settle provider (server.readQuote upper symbol now)).market =
      (marketSymbol upper provider server.market symbol now).1 := by
  unfold Server.settle Server.readQuote marketSymbol
  dsimp only
  cases provider (upper symbol) now with
  | none => cases (server.market.getPriceWithTime (upper symbol)).1 <;> rfl
  | some providerPrice => rfl

/-! ### The engines -/

/-- Entries that are made of keys, one for each, have their keys in the order of the keys. -/
theorem map_filterMap_sublist {κ ι : Type} {entry : κ → Option ι} {key : ι → κ}
    (hkey : ∀ k e, entry k = some e → key e = k) (keys : List κ) :
    ((keys.filterMap entry).map key).Sublist keys := by
  induction keys with
  | nil => exact List.Sublist.slnil
  | cons k keys ih =>
    cases hentry : entry k with
    | none => simpa [hentry] using ih.cons k
    | some e => simpa [hentry, hkey k e hentry] using ih

section Engines

variable [DecidableEq Client] {server : Server Client}

/-- A message that is well formed may be sent. -/
theorem Sound.emit (h : Sound P server) {engine : Engine} {message : MarketMessage}
    (hmessage : WellFormed P engine message) : Sound P (server.emit engine message) where
  price := h.price
  reads := h.reads
  symbols_nodup := h.symbols_nodup
  signals := h.signals
  feed := h.feed
  candles := h.candles
  emitted e m hmem := by
    rcases Hub.mem_emitted_broadcast hmem with hmem | ⟨rfl, rfl⟩
    · exact h.emitted e m hmem
    · exact hmessage

omit [DecidableEq Client] in
/-- A full snapshot of a sound state is well formed. -/
theorem wellFormed_buildPayload (h : Sound P server) (now : ℚ) :
    WellFormed P .marketStream (server.buildPayload now) := by
  refine ⟨h.symbols_nodup.sublist (map_filterMap_sublist (fun symbol entry hentry => ?_) _),
    fun entry hmem => ?_⟩
  · obtain ⟨price, -, rfl⟩ := Option.map_eq_some_iff.mp hentry
    rfl
  · obtain ⟨symbol, -, he⟩ := List.mem_filterMap.mp hmem
    obtain ⟨price, hprice, rfl⟩ := Option.map_eq_some_iff.mp he
    refine ⟨h.price symbol price hprice, ?_, length_lastCandles_le _, ?_⟩
    · -- a symbol without a signal is shown with HOLD
      cases hsignal : server.signals symbol with
      | none => simp
      | some signal => simpa [hsignal] using h.signals symbol signal hsignal
    · have hbars := (h.candles symbol .m1).bars
      exact (hbars.sublist (List.sublist_append_left _ _)).lastCandles

omit [DecidableEq Client] in
/-- The updates of a round, if there are any. -/
theorem wellFormed_updates (h : Sound P server) (hne : server.updates ≠ []) :
    WellFormed P .marketFeed (.marketBatch server.updates) := by
  refine ⟨hne, ?_, fun update hmem => ?_⟩
  · refine List.Nodup.sublist (map_filterMap_sublist (fun symbol update hupdate => ?_) _)
      (by decide : SYMBOLS.Nodup)
    exact (h.feed symbol update (Option.join_eq_some_iff.mp hupdate)).1
  · obtain ⟨symbol, hsymbol, hjoin⟩ := List.mem_filterMap.mp hmem
    obtain ⟨rfl, hupdate⟩ := h.feed symbol update (Option.join_eq_some_iff.mp hjoin)
    exact ⟨hsymbol, hupdate⟩

/-- The candle engine folds a price that is stored into the candles of its symbol. -/
theorem Sound.candleNext (h : Sound P server) : Sound P server.candleNext := by
  unfold Server.candleNext
  split
  · next symbol timeframe broadcasts _ =>
    -- a broadcast that is due, unless the engine has no candle to send
    have hturn : Sound P { server with turn := { server.turn with broadcasts } } :=
      ⟨h.price, h.reads, h.symbols_nodup, h.signals, h.feed, h.candles, h.emitted⟩
    have hbars := (h.candles symbol timeframe).bars
    dsimp only
    split_ifs with hcandles
    · exact hturn
    · have hmessage : WellFormed P .candle (.candleUpdate symbol timeframe
          (lastCandles (server.candles (symbol, timeframe)).candles)) :=
        ⟨lastCandles_ne_nil hcandles, length_lastCandles_le _,
          (hbars.sublist (List.sublist_append_left _ _)).lastCandles⟩
      exact hturn.emit hmessage
  · next symbol symbols _ _ =>
    dsimp only
    -- the next symbol: without a price no tick is folded in
    cases hprice : server.market.getPrice symbol with
    | none => exact ⟨h.price, h.reads, h.symbols_nodup, h.signals, h.feed, h.candles, h.emitted⟩
    | some price =>
      refine ⟨h.price, h.reads, h.symbols_nodup, h.signals, h.feed, fun s timeframe => ?_,
        h.emitted⟩
      dsimp only
      rw [foldTick_apply]
      split_ifs with hs
      · subst hs
        exact (h.candles symbol timeframe).update (h.price symbol price hprice) MAX_CANDLES
      · exact h.candles s timeframe
  · exact h

variable (lib : JwtLib Token) (settings : Settings) (upper : String → String)

/-- Every event keeps the invariant, as long as the clock does not go back. -/
theorem sound_step
    (hP : ∀ symbol now price, provider symbol now = some price → P symbol price)
    (h : Sound P server) {event : ServerEvent Client Token} (hclock : ClockForward server event) :
    Sound P (server.step lib settings upper provider event) := by
  cases event with
  | processed symbol now =>
    unfold Server.step
    dsimp only
    split_ifs
    · -- the price that was fetched is both stored and queued for the feed
      obtain ⟨hmarket, hresult⟩ := processSymbol_spec hP h.price symbol now
      have hwith := h.withMarket symbol hmarket
      refine ⟨hwith.price, hwith.reads, hwith.symbols_nodup, hwith.signals,
        fun s update hupdate => ?_, hwith.candles, hwith.emitted⟩
      by_cases hs : s = symbol
      · subst hs
        simp only [Function.update_self, Option.some.injEq, Option.map_eq_some_iff] at hupdate
        obtain ⟨price, hprice, rfl⟩ := hupdate
        exact ⟨rfl, hresult price hprice⟩
      · exact h.feed s update (by simpa [hs] using hupdate)
    · exact h
  | feedBatch =>
    unfold Server.step
    dsimp only
    -- the round is over, whether or not it has found an update
    have hround : Sound P { server with feed := fun _ => none } :=
      ⟨h.price, h.reads, h.symbols_nodup, h.signals, nofun, h.candles, h.emitted⟩
    split_ifs with _ hnone
    · exact hround
    · exact hround.emit (wellFormed_updates h hnone)
    · exact h
  | marketSymbol request symbol now =>
    -- the read holds what the market had at that moment
    refine ⟨h.price, fun other read hread => ?_, h.symbols_nodup, h.signals, h.feed, h.candles,
      h.emitted⟩
    by_cases hother : other = request
    · subst hother
      obtain rfl : server.readQuote upper symbol now = read := by simpa [Server.step] using hread
      exact fun price hprice => h.price _ price hprice
    · exact h.reads other read (by simpa [Server.step, hother] using hread)
  | marketSettled request =>
    unfold Server.step
    dsimp only
    cases hread : server.reads request with
    | none => exact h
    | some read =>
      -- what is settled was true of the market when it was read
      have hsettled := h.settle hP (h.reads request read hread)
      refine ⟨hsettled.price, fun other found hfound => ?_, hsettled.symbols_nodup,
        hsettled.signals, hsettled.feed, hsettled.candles, hsettled.emitted⟩
      by_cases hother : other = request
      · simp [hother] at hfound
      · exact h.reads other found (by simpa [hother] using hfound)
  | updateSignal symbol signal =>
    refine ⟨h.price, h.reads, h.symbols_nodup, fun s stored hstored => ?_, h.feed, h.candles,
      h.emitted⟩
    by_cases hs : s = symbol
    · subst hs
      -- a signal that is not valid is stored as HOLD
      have heq : validSignal signal = stored := by simpa [Server.step] using hstored
      rw [← heq, validSignal]
      split_ifs with hvalid
      · exact hvalid
      · simp
    · exact h.signals s stored (by simpa [Server.step, hs] using hstored)
  | candleTurn now =>
    unfold Server.step
    dsimp only
    split_ifs
    · -- the candles only get older with the clock
      exact ⟨h.price, h.reads, h.symbols_nodup, h.signals, h.feed,
        fun s timeframe => (h.candles s timeframe).mono hclock, h.emitted⟩
    · exact h
  | candleNext =>
    unfold Server.step
    dsimp only
    split_ifs
    · exact h.candleNext
    · exact h
  | streamTurn now => exact h.emit (wellFormed_buildPayload h now)
  | socket event =>
    cases event with
    | emitted engine message => exact h
    | _ =>
      -- the sockets do not reach the engines: they emit nothing
      refine ⟨h.price, h.reads, h.symbols_nodup, h.signals, h.feed, h.candles,
        fun engine message hmem => ?_⟩
      unfold Server.step at hmem
      rw [Hub.emitted_step lib settings nofun] at hmem
      exact h.emitted engine message hmem

variable (provider)

/-- The candle engine broadcasts once, or does not touch the manager. -/
theorem exists_hub_candleNext (server : Server Client) :
    server.candleNext.hub = server.hub ∨
      ∃ message, server.candleNext.hub = server.hub.broadcast .candle message := by
  unfold Server.candleNext
  split
  · dsimp only
    split_ifs
    · exact .inl rfl
    · exact .inr ⟨_, rfl⟩
  · dsimp only
    split <;> exact .inl rfl
  · exact .inl rfl

/-- The connection manager takes its own steps. -/
theorem exists_hub_steps (server : Server Client) (event : ServerEvent Client Token) :
    ∃ events : List (HubEvent Client Engine MarketMessage Token),
      (server.step lib settings upper provider event).hub =
        events.foldl (Hub.step lib settings) server.hub := by
  cases event with
  | processed symbol now =>
    refine ⟨[], ?_⟩
    unfold Server.step
    dsimp only
    split_ifs <;> rfl
  | feedBatch =>
    unfold Server.step
    dsimp only
    split_ifs
    · exact ⟨[], rfl⟩
    · exact ⟨[.emitted .marketFeed (.marketBatch server.updates)], rfl⟩
    · exact ⟨[], rfl⟩
  | marketSymbol request symbol now => exact ⟨[], rfl⟩
  | marketSettled request =>
    refine ⟨[], ?_⟩
    unfold Server.step Server.settle
    dsimp only
    split
    · rfl
    · split <;> rfl
  | updateSignal symbol signal => exact ⟨[], rfl⟩
  | candleTurn now =>
    refine ⟨[], ?_⟩
    unfold Server.step
    dsimp only
    split_ifs <;> rfl
  | candleNext =>
    unfold Server.step
    dsimp only
    split_ifs
    · rcases exists_hub_candleNext server with h | ⟨message, h⟩
      · exact ⟨[], h⟩
      · exact ⟨[.emitted .candle message], h⟩
    · exact ⟨[], rfl⟩
  | streamTurn now => exact ⟨[.emitted .marketStream (server.buildPayload now)], rfl⟩
  | socket event =>
    cases event with
    | emitted engine message => exact ⟨[], rfl⟩
    | opened client token now accepted => exact ⟨[.opened client token now accepted], rfl⟩
    | received client frame now sent => exact ⟨[.received client frame now sent], rfl⟩
    | left client => exact ⟨[.left client], rfl⟩
    | sent engine client sent => exact ⟨[.sent engine client sent], rfl⟩

variable {provider}

/-- A run from the start of the server. -/
def run (provider : Provider) (events : List (ServerEvent Client Token)) : Server Client :=
  events.foldl (Server.step lib settings upper provider) .init

/-- A run of the server is a run of its connection manager. -/
theorem exists_hub_run (events : List (ServerEvent Client Token)) :
    ∃ hubEvents, (run lib settings upper provider events).hub =
      Hub.run lib settings hubEvents := by
  refine Runs.foldl_invariant (A := fun _ => True)
    (J := fun server : Server Client => ∃ hubEvents, server.hub = Hub.run lib settings hubEvents)
    ?_ ⟨[], rfl⟩ fun _ _ => trivial
  rintro server event - ⟨hubEvents, hhub⟩
  obtain ⟨more, hmore⟩ := exists_hub_steps provider lib settings upper server event
  refine ⟨hubEvents ++ more, ?_⟩
  rw [hmore, hhub, Hub.run, Hub.run, List.foldl_append]

/-- Whatever the order of the steps, every message that a client is handed is well formed. -/
theorem wellFormed_of_mem_inbox
    (hP : ∀ symbol now price, provider symbol now = some price → P symbol price)
    {events : List (ServerEvent Client Token)}
    (hclock : Runs.EveryStep (Server.step lib settings upper provider) ClockForward .init events)
    {client : Client} {engine : Engine} {message : MarketMessage}
    (hmem : .published engine message ∈
      (run lib settings upper provider events).hub.inbox client) :
    WellFormed P engine message := by
  have hsound : Sound P (run lib settings upper provider events) :=
    Runs.always_of_everyStep (J := Sound P)
      (fun _ _ h hevent => sound_step lib settings upper hP h hevent) (sound_init P) hclock events
      List.prefix_rfl
  obtain ⟨hubEvents, hhub⟩ : ∃ hubEvents, (run lib settings upper provider events).hub =
    Hub.run lib settings hubEvents := exists_hub_run lib settings upper events
  have htaken : message ∈ (run lib settings upper provider events).hub.taken engine client :=
    List.mem_filterMap.mpr ⟨_, hmem, by simp [Hub.fromEngine]⟩
  refine hsound.emitted engine message ?_
  rw [hhub] at htaken ⊢
  exact Hub.taken_subset_emitted lib settings hubEvents client engine htaken

end Engines

end Safety

/-- A client calls, a price is stored, and its first candle is over after a minute. The candle and
then the price are sent out. -/
def firstCandle : List (ServerEvent ℕ Claims) :=
  [.socket (.opened 1 (some (accessClaims {} 1 "first" 0)) 1 true), .marketSymbol 0 "aapl" 2,
    .marketSettled 0, .candleTurn 3] ++ List.replicate 14 .candleNext ++
  [.candleTurn 63, .candleNext, .candleNext, .socket (.sent .candle 1 true), .streamTurn 64,
    .socket (.sent .marketStream 1 true)]

/-- The client receives the candle of the first minute. -/
theorem wellFormed_firstCandle :
    WellFormed (fun _ price => price = 100) .candle
      (.candleUpdate "AAPL" .m1 [⟨0, 100, 100, 100, 100⟩]) := by
  have hclock : Runs.EveryStep
      (Server.step transparentJwt {} String.toUpper fun _ _ => some 100) ClockForward .init
      firstCandle := by
    simp only [firstCandle, List.replicate, List.cons_append, List.nil_append,
      Runs.everyStep_cons, Runs.everyStep_nil, ClockForward, true_and, and_true]
    decide +kernel
  have hmem : .published .candle (.candleUpdate "AAPL" .m1 [⟨0, 100, 100, 100, 100⟩]) ∈
      (run transparentJwt {} String.toUpper (fun _ _ => some 100) firstCandle).hub.inbox 1 := by
    decide +kernel
  exact wellFormed_of_mem_inbox transparentJwt {} String.toUpper
    (fun _ _ _ h => (Option.some.inj h).symm) hclock hmem

end TradingSimulator.MarketStream
