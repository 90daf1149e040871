import TradingSimulator.Market.CandleEngine
import Mathlib.Data.List.Sort

/-!
# The candlestick chart

The chart derives the candles of every timeframe from those of one minute: `aggregateCandles`
(`frontend/src/components/charts/CandlestickChart.jsx`) merges them in a map by bucket. Its buckets
are those of the candle engine, as a minute lies in one bucket of each larger size
(`bars_eq_aggregateBuckets`).
-/

namespace TradingSimulator

section Chart

variable {K : Type} [LinearOrder K]

/-- One candle of the loop over the map `buckets`, whose entries stand in the order in which their
keys were set. -/
def bucketStep (bucketSec : ℕ) (buckets : List (Candle K)) (c : Candle K) : List (Candle K) :=
  let t := c.time / bucketSec * bucketSec
  match KeyedRows.lookup Candle.time t buckets with
  | none => KeyedRows.put Candle.time { c with time := t } buckets
  | some prev =>
    KeyedRows.put Candle.time
      { prev with
        high := max prev.high c.high
        low := min prev.low c.low
        close := c.close }
      buckets

/-- The values of the map, sorted by time. -/
def aggregateBuckets (bucketSec : ℕ) (candles : List (Candle K)) : List (Candle K) :=
  (candles.foldl (bucketStep bucketSec) []).mergeSort fun a b => a.time ≤ b.time

/-- `aggregateCandles`. -/
def aggregateCandles (candles : List (Candle K)) (timeframe : Timeframe) : List (Candle K) :=
  let bucketSec := timeframe.seconds
  if bucketSec = 60 then candles.rtake 180
  else (aggregateBuckets bucketSec candles).rtake 180

/-- A candle in the bucket of its time. -/
def Candle.coarse (bucketSec : ℕ) (c : Candle K) : Candle K :=
  { c with time := c.time / bucketSec * bucketSec }

/-- A minute lies in one bucket of every timeframe. -/
theorem sixty_dvd_seconds (timeframe : Timeframe) : 60 ∣ timeframe.seconds := by
  cases timeframe <;> decide

theorem bucketStart_eq (ts tfSeconds : ℕ) :
    bucketStart ts tfSeconds = ts / tfSeconds * tfSeconds := by
  unfold bucketStart
  have hdiv := Nat.div_add_mod' ts tfSeconds
  omega

omit [LinearOrder K] in
/-- The bucket of a tick is that of its minute. -/
theorem Candle.coarse_ofTick {fine tfSeconds : ℕ} (hfine : 0 < fine) (hdvd : fine ∣ tfSeconds)
    (price : K) (ts : ℕ) :
    (Candle.ofTick fine price ts).coarse tfSeconds = Candle.ofTick tfSeconds price ts := by
  obtain ⟨m, rfl⟩ := hdvd
  simp only [Candle.coarse, Candle.ofTick, bucketStart_eq]
  rw [← Nat.div_div_eq_div_mul, Nat.mul_div_cancel _ hfine, Nat.div_div_eq_div_mul]

/-- A step of the loop merges the candle into the one of its bucket. -/
theorem bucketStep_eq (bucketSec : ℕ) (buckets : List (Candle K)) (c : Candle K) :
    bucketStep bucketSec buckets c =
      KeyedRuns.mergeRow Candle.time Candle.merge buckets (c.coarse bucketSec) := by
  simp only [bucketStep, KeyedRuns.mergeRow, Candle.coarse]
  cases KeyedRows.lookup Candle.time (c.time / bucketSec * bucketSec) buckets <;> rfl

/-- Candles whose times never decrease are merged in runs, and the map is sorted already. -/
theorem aggregateBuckets_eq (bucketSec : ℕ) {candles : List (Candle K)}
    (hcandles : candles.Pairwise fun a b => a.time ≤ b.time) :
    aggregateBuckets bucketSec candles =
      KeyedRuns.collect Candle.time Candle.merge (candles.map (Candle.coarse bucketSec)) := by
  have hcoarse : (candles.map (Candle.coarse bucketSec)).Pairwise fun a b => a.time ≤ b.time :=
    List.pairwise_map.mpr (hcandles.imp fun hle =>
      Nat.mul_le_mul_right bucketSec (Nat.div_le_div_right hle))
  have hfold : candles.foldl (bucketStep bucketSec) [] =
      KeyedRuns.collect Candle.time Candle.merge (candles.map (Candle.coarse bucketSec)) := by
    rw [← KeyedRuns.foldl_mergeRow Candle.merge_time hcoarse, List.foldl_map]
    simp only [← bucketStep_eq]
  rw [aggregateBuckets, hfold]
  refine List.mergeSort_of_pairwise ?_
  exact (KeyedRuns.pairwise_collect Candle.merge_time hcoarse).imp fun hlt => by
    simpa using hlt.le

/-- The candles of a timeframe that the engine makes of the ticks of a symbol are those that the
chart merges from its candles of one minute, and the chart shows the last of them. -/
theorem bars_eq_aggregateBuckets (ticks : List (Tick K)) (symbol : String) (timeframe : Timeframe)
    (hts : (ticks.filter fun tick => tick.symbol = symbol).Pairwise fun a b => a.ts ≤ b.ts) :
    let bars := fun timeframe => (foldTicks none ticks (symbol, timeframe)).bars
    bars timeframe = aggregateBuckets timeframe.seconds (bars .m1) ∧
      aggregateCandles (bars .m1) timeframe = (bars timeframe).rtake 180 := by
  intro bars
  -- the times of the ticks never decrease, nor do their minutes
  have hminutes : ((ticks.filter fun tick => tick.symbol = symbol).map fun tick =>
      Candle.ofTick Timeframe.m1.seconds tick.price tick.ts).Pairwise
        fun a b => a.time ≤ b.time :=
    List.pairwise_map.mpr (hts.imp fun hle => by
      simp only [Candle.ofTick, bucketStart_eq]
      exact Nat.mul_le_mul_right _ (Nat.div_le_div_right hle))
  have hbars : bars .m1 = _ := bars_foldTicks ticks symbol .m1
  have hsorted : (bars .m1).Pairwise fun a b => a.time ≤ b.time := by
    rw [hbars]
    exact (KeyedRuns.pairwise_collect Candle.merge_time hminutes).imp fun hlt => hlt.le
  -- the engine and the chart both collect the ticks, the chart by way of their minutes
  have hbuckets : bars timeframe = aggregateBuckets timeframe.seconds (bars .m1) := by
    rw [aggregateBuckets_eq _ hsorted, hbars,
      KeyedRuns.collect_map_collect Candle.merge_assoc Candle.merge_time (fun _ _ => rfl)
        (fun a b h => by simp only [Candle.coarse, h]),
      List.map_map]
    refine (bars_foldTicks ticks symbol timeframe).trans (congrArg _ ?_)
    refine List.map_congr_left fun tick _ => ?_
    exact (Candle.coarse_ofTick (by decide) (sixty_dvd_seconds timeframe) tick.price tick.ts).symm
  refine ⟨hbuckets, ?_⟩
  cases timeframe with
  | m1 => simp [aggregateCandles, Timeframe.seconds]
  | m5 => simp [hbuckets, aggregateCandles, Timeframe.seconds]
  | m15 => simp [hbuckets, aggregateCandles, Timeframe.seconds]

/-- Ticks on both sides of a minute and of five minutes. -/
def crossingTicks : List (Tick ℤ) :=
  [⟨"AAPL", 10, 0⟩, ⟨"AAPL", 13, 59⟩, ⟨"TSLA", 70, 59⟩, ⟨"AAPL", 8, 240⟩, ⟨"AAPL", 9, 301⟩]

/-- Ticks that cross a bucket of each timeframe. -/
theorem bars_eq_aggregateBuckets_crossingTicks :
    let bars := fun timeframe => (foldTicks none crossingTicks ("AAPL", timeframe)).bars
    bars .m5 = aggregateBuckets 300 (bars .m1) ∧
      aggregateCandles (bars .m1) .m5 = (bars .m5).rtake 180 :=
  bars_eq_aggregateBuckets crossingTicks "AAPL" .m5 (by decide)

/-- The two candles of five minutes. -/
example : (foldTicks none crossingTicks ("AAPL", .m5)).bars =
    [⟨0, 10, 13, 8, 8⟩, ⟨300, 9, 9, 9, 9⟩] := by decide

end Chart

end TradingSimulator
