import TradingSimulator.Library.KeyedRuns
import Mathlib.Data.List.DropRight
import Mathlib.Logic.Function.Basic
import Mathlib.Order.Lattice

/-!
# The candle engine

`_update_candle` (`app/market/candle_engine.py`) folds the ticks of a symbol into one candle for
every bucket of time, at three bucket sizes at once. The candles of one size are those of the
single ticks, collected by their bucket (`bars_foldTicks`).
-/

namespace TradingSimulator

inductive Timeframe where
  | m1
  | m5
  | m15
  deriving DecidableEq

/-- `TIMEFRAMES`: the size of a bucket in seconds. -/
def Timeframe.seconds : Timeframe → ℕ
  | .m1 => 60
  | .m5 => 300
  | .m15 => 900

/-- The keys of `TIMEFRAMES`. -/
def timeframes : List Timeframe := [.m1, .m5, .m15]

/-- A candle over the bucket that starts at `time`. -/
structure Candle (K : Type) where
  time : ℕ
  openPrice : K
  high : K
  low : K
  close : K
  deriving DecidableEq

/-- A price of a symbol at a time in seconds. -/
structure Tick (K : Type) where
  symbol : String
  price : K
  ts : ℕ

/-- The candles of one symbol and timeframe: the open one, in `_active`, and those that the market
state was given. -/
structure CandleSeries (K : Type) where
  active : Option (Candle K)
  candles : List (Candle K)

/-- The candles of all symbols and timeframes. -/
abbrev CandleStore (K : Type) := String × Timeframe → CandleSeries K

section Engine

variable {K : Type}

/-- `_bucket_start`. -/
def bucketStart (ts tfSeconds : ℕ) : ℕ := ts - ts % tfSeconds

/-- A new candle. -/
def Candle.ofTick (tfSeconds : ℕ) (price : K) (ts : ℕ) : Candle K where
  time := bucketStart ts tfSeconds
  openPrice := price
  high := price
  low := price
  close := price

/-- `add_candle`, on a queue that keeps the last `maxCandles` entries, or all of them. -/
def addCandle (maxCandles : Option ℕ) (candles : List (Candle K)) (candle : Candle K) :
    List (Candle K) :=
  match maxCandles with
  | none => candles ++ [candle]
  | some max => (candles ++ [candle]).rtake max

/-- The length of the queues of the market state. -/
def MAX_CANDLES : ℕ := 500

/-- No tick has been seen. -/
def CandleSeries.empty : CandleSeries K := { active := none, candles := [] }

/-- The closed candles, followed by the open one. -/
def CandleSeries.bars (series : CandleSeries K) : List (Candle K) :=
  series.candles ++ series.active.toList

variable [LinearOrder K]

/-- `_update_candle`, on the candles of its symbol and timeframe. -/
def CandleSeries.update (maxCandles : Option ℕ) (tfSeconds : ℕ) (series : CandleSeries K)
    (price : K) (ts : ℕ) : CandleSeries K :=
  let new := Candle.ofTick tfSeconds price ts
  match series.active with
  | none => { series with active := some new }
  | some candle =>
    if candle.time ≠ bucketStart ts tfSeconds then
      { active := some new, candles := addCandle maxCandles series.candles candle }
    else
      { series with
        active := some { candle with
          high := max candle.high price
          low := min candle.low price
          close := price } }

/-- `_update_candle`. -/
def updateCandle (maxCandles : Option ℕ) (store : CandleStore K) (symbol : String)
    (timeframe : Timeframe) (price : K) (ts : ℕ) : CandleStore K :=
  Function.update store (symbol, timeframe)
    ((store (symbol, timeframe)).update maxCandles timeframe.seconds price ts)

/-- A tick is folded into the candles of every timeframe. -/
def foldTick (maxCandles : Option ℕ) (store : CandleStore K) (tick : Tick K) : CandleStore K :=
  timeframes.foldl
    (fun store timeframe => updateCandle maxCandles store tick.symbol timeframe tick.price tick.ts)
    store

/-- The candles after a sequence of ticks. -/
def foldTicks (maxCandles : Option ℕ) (ticks : List (Tick K)) : CandleStore K :=
  ticks.foldl (foldTick maxCandles) fun _ => CandleSeries.empty

/-- Two candles as one: the second is the later one. -/
def Candle.merge (a b : Candle K) : Candle K :=
  { a with
    high := max a.high b.high
    low := min a.low b.low
    close := b.close }

theorem Candle.merge_assoc (a b c : Candle K) : (a.merge b).merge c = a.merge (b.merge c) := by
  simp only [Candle.merge, max_assoc, min_assoc]

@[simp]
theorem Candle.merge_time (a b : Candle K) : (a.merge b).time = a.time := rfl

/-! ### One symbol and timeframe -/

/-- A tick reaches all timeframes of its own symbol and nothing else. -/
theorem foldTick_apply (maxCandles : Option ℕ) (store : CandleStore K) (tick : Tick K)
    (symbol : String) (timeframe : Timeframe) :
    foldTick maxCandles store tick (symbol, timeframe) =
      if tick.symbol = symbol then
        (store (symbol, timeframe)).update maxCandles timeframe.seconds tick.price tick.ts
      else store (symbol, timeframe) := by
  by_cases h : tick.symbol = symbol
  · subst h
    cases timeframe <;> simp [foldTick, timeframes, updateCandle]
  · have hne : ∀ tf tf' : Timeframe, (symbol, tf) ≠ (tick.symbol, tf') :=
      fun _ _ heq => h (congrArg Prod.fst heq).symm
    simp [foldTick, timeframes, updateCandle, hne, h]

/-- The candles of a symbol are made of its own ticks. -/
theorem foldTicks_apply (maxCandles : Option ℕ) (ticks : List (Tick K)) (symbol : String)
    (timeframe : Timeframe) :
    foldTicks maxCandles ticks (symbol, timeframe) =
      (ticks.filter fun tick => tick.symbol = symbol).foldl
        (fun series tick => series.update maxCandles timeframe.seconds tick.price tick.ts)
        CandleSeries.empty := by
  induction ticks using List.reverseRecOn with
  | nil => rfl
  | append_singleton ticks tick ih =>
    rw [foldTicks, List.foldl_append, List.foldl_cons, List.foldl_nil, foldTick_apply,
      List.filter_append, List.foldl_append]
    rw [foldTicks] at ih
    by_cases h : tick.symbol = symbol
    · simp [h, ih]
    · simp [h, ih]

/-- Without a limit on the closed candles, a tick is a candle of its own that is pushed to the
others. -/
theorem CandleSeries.bars_update {series : CandleSeries K} (tfSeconds : ℕ) (price : K) (ts : ℕ)
    (hopen : series.active = none → series.candles = []) :
    (series.update none tfSeconds price ts).bars =
        KeyedRuns.push Candle.time Candle.merge series.bars (Candle.ofTick tfSeconds price ts) ∧
      (series.update none tfSeconds price ts).active ≠ none := by
  unfold CandleSeries.update CandleSeries.bars
  cases hactive : series.active with
  | none => simp [hopen hactive]
  | some candle =>
    rw [Option.toList_some, KeyedRuns.push_concat]
    by_cases h : candle.time = bucketStart ts tfSeconds
    · simp [h, Candle.merge, Candle.ofTick]
    · simp [h, addCandle, Candle.ofTick]

/-- The candles of one bucket size are those of the ticks, collected by their bucket. -/
theorem CandleSeries.bars_foldl (tfSeconds : ℕ) (ticks : List (Tick K)) :
    let series := ticks.foldl
      (fun series tick => series.update none tfSeconds tick.price tick.ts) CandleSeries.empty
    (series.active = none → series.candles = []) ∧
      series.bars = KeyedRuns.collect Candle.time Candle.merge
        (ticks.map fun tick => Candle.ofTick tfSeconds tick.price tick.ts) := by
  induction ticks using List.reverseRecOn with
  | nil => exact ⟨fun _ => rfl, rfl⟩
  | append_singleton ticks tick ih =>
    obtain ⟨hopen, hbars⟩ := ih
    obtain ⟨hnext, hactive⟩ := CandleSeries.bars_update tfSeconds tick.price tick.ts hopen
    rw [List.foldl_append, List.map_append, List.map_singleton, KeyedRuns.collect_concat, ← hbars]
    exact ⟨fun hnone => absurd hnone hactive, hnext⟩

/-- The candles of a symbol and a timeframe are those of its ticks, collected by their bucket. -/
theorem bars_foldTicks (ticks : List (Tick K)) (symbol : String) (timeframe : Timeframe) :
    (foldTicks none ticks (symbol, timeframe)).bars =
      KeyedRuns.collect Candle.time Candle.merge
        ((ticks.filter fun tick => tick.symbol = symbol).map fun tick =>
          Candle.ofTick timeframe.seconds tick.price tick.ts) := by
  rw [foldTicks_apply]
  exact (CandleSeries.bars_foldl timeframe.seconds _).2

/-! ### The length of the queues -/

omit [LinearOrder K] in
/-- A queue that has dropped its oldest entries goes on to hold the last ones. -/
theorem addCandle_rtake (max : ℕ) (candles : List (Candle K)) (candle : Candle K) :
    addCandle (some max) (candles.rtake max) candle =
      (addCandle none candles candle).rtake max := by
  simp only [addCandle, List.rtake, List.length_append, List.length_drop, List.length_singleton]
  rcases Nat.lt_or_ge candles.length max with hlt | hge
  · rw [Nat.sub_eq_zero_of_le hlt.le, List.drop_zero, Nat.sub_zero]
  · rw [List.drop_append, List.drop_append, List.drop_drop, List.length_drop]
    congr 2
    · omega
    · omega

/-- The queue of one symbol and timeframe holds the last of its closed candles. -/
theorem CandleSeries.foldl_some (max tfSeconds : ℕ) (ticks : List (Tick K)) :
    ticks.foldl (fun series tick => series.update (some max) tfSeconds tick.price tick.ts)
        CandleSeries.empty =
      let series := ticks.foldl
        (fun series tick => series.update none tfSeconds tick.price tick.ts) CandleSeries.empty
      { series with candles := series.candles.rtake max } := by
  induction ticks using List.reverseRecOn with
  | nil => simp [CandleSeries.empty, List.rtake]
  | append_singleton ticks tick ih =>
    rw [List.foldl_append, List.foldl_append, ih]
    simp only [List.foldl_cons, List.foldl_nil, CandleSeries.update]
    split
    · rfl
    · split_ifs
      · rw [addCandle_rtake]
      · rfl

/-- The market state holds the last of the closed candles. -/
theorem foldTicks_some (max : ℕ) (ticks : List (Tick K)) (symbol : String)
    (timeframe : Timeframe) :
    foldTicks (some max) ticks (symbol, timeframe) =
      { foldTicks none ticks (symbol, timeframe) with
        candles := (foldTicks none ticks (symbol, timeframe)).candles.rtake max } := by
  rw [foldTicks_apply, foldTicks_apply]
  exact CandleSeries.foldl_some max timeframe.seconds _

end Engine

end TradingSimulator
