import TradingSimulator.Library.Rounding
import Mathlib.Data.Rat.Floor

/-!
# The synthetic market

The synthetic provider (`app/market/fetch_stock_data.py`) quotes a price as a function of the
symbol and the time. Whoever asks for the spot price gets its value at the instant itself, while
the last bar of `_synthetic_df` closes with its value at the start of the running bucket, so the two
are the same quote only on the boundary of a bucket (`lastClose_eq_priceAt_iff`).
-/

namespace TradingSimulator

open Rounding

/-- The intervals in `_BUCKET_SECONDS`. -/
inductive Interval where
  | m1
  | m2
  | m5
  | m15
  | m30
  | m60
  | m90
  | d1
  deriving DecidableEq

/-- `_BUCKET_SECONDS`. -/
def Interval.bucketSeconds : Interval → ℤ
  | .m1 => 60
  | .m2 => 120
  | .m5 => 300
  | .m15 => 900
  | .m30 => 1800
  | .m60 => 3600
  | .m90 => 5400
  | .d1 => 86400

/-- The bars of history. -/
def HISTORY_BARS : ℕ := 200

/-- A row of the data frame, with its index. -/
structure Bar (K : Type) where
  time : ℤ
  openPrice : K
  high : K
  low : K
  close : K
  volume : K

section Provider

variable {K : Type} [Field K] [LinearOrder K] [FloorRing K]

/-- The start of the bucket of an instant: `(now // bucket) * bucket`. -/
def lastBar (bucket : ℤ) (now : K) : ℤ := truncate now / bucket * bucket

/-- The times of the bars, the last of which is aligned to the boundary of the bucket. -/
def barTimes (bucket : ℤ) (now : K) : List ℤ :=
  (List.range HISTORY_BARS).map fun (i : ℕ) =>
    lastBar bucket now - (HISTORY_BARS - 1 - i) * bucket

/-- `_synthetic_df` at the instant `now`, with `price_at` and `_bar_jitter` as parameters. -/
def syntheticDf (priceAt : String → K → K) (barJitter : String → ℤ → K) (symbol : String)
    (interval : Interval) (now : K) : List (Bar K) :=
  let times := barTimes interval.bucketSeconds now
  let closes := times.map fun t : ℤ => priceAt symbol (t : K)
  let opens := closes.take 1 ++ closes.dropLast
  List.zipWith
    (fun t oc =>
      { time := t
        openPrice := oc.1
        high := max oc.1 oc.2 * (1 + (15 / 10 ^ 4 : ℚ) + (4 / 10 ^ 3 : ℚ) * barJitter symbol t)
        low := min oc.1 oc.2 *
          (1 - (15 / 10 ^ 4 : ℚ) - (4 / 10 ^ 3 : ℚ) * barJitter symbol (t + 1))
        close := oc.2
        volume := (50000 + truncate (barJitter symbol (t + 2) * (950000 : ℚ)) : ℤ) })
    times (opens.zip closes)

/-- `fetch_stock_data` in synthetic mode. -/
def fetchStockData (priceAt : String → K → K) (barJitter : String → ℤ → K) (symbol : String)
    (interval : Interval) (now : K) : List (Bar K) :=
  syntheticDf priceAt barJitter symbol interval now

/-- The close of the last bar: `df["close"].iloc[-1]`. -/
def lastClose (df : List (Bar K)) : Option K := df.getLast?.map Bar.close

/-- The bars close with the prices at their times. -/
theorem map_close_syntheticDf (priceAt : String → K → K) (barJitter : String → ℤ → K)
    (symbol : String) (interval : Interval) (now : K) :
    (syntheticDf priceAt barJitter symbol interval now).map Bar.close =
      (barTimes interval.bucketSeconds now).map fun t : ℤ => priceAt symbol t := by
  have hlength : (barTimes interval.bucketSeconds now).length = HISTORY_BARS := by
    simp [barTimes]
  have hbars : 1 ≤ HISTORY_BARS := by decide
  apply List.ext_getElem
  · simp only [syntheticDf, List.length_map, List.length_zipWith, List.length_zip,
      List.length_append, List.length_take, List.length_dropLast, hlength]
    omega
  · intro i hi hi'
    simp [syntheticDf]

/-- The last bar starts at the boundary of the running bucket. -/
theorem getLast?_barTimes (bucket : ℤ) (now : K) :
    (barTimes bucket now).getLast? = some (lastBar bucket now) := by
  have hrange : List.range HISTORY_BARS = List.range 199 ++ [199] := List.range_succ
  rw [barTimes, hrange, List.map_append, List.map_singleton, List.getLast?_concat]
  norm_num [HISTORY_BARS]

/-- The last bar closes with the price at its start. -/
theorem lastClose_fetchStockData (priceAt : String → K → K) (barJitter : String → ℤ → K)
    (symbol : String) (interval : Interval) (now : K) :
    lastClose (fetchStockData priceAt barJitter symbol interval now) =
      some (priceAt symbol (lastBar interval.bucketSeconds now)) := by
  rw [lastClose, ← List.getLast?_map, fetchStockData, map_close_syntheticDf, List.getLast?_map,
    getLast?_barTimes, Option.map_some]

/-- For every price function the two quotes are the same only when their instants are. -/
theorem forall_priceAt_iff (barJitter : String → ℤ → K) (symbol : String) (interval : Interval)
    (now : K) :
    (∀ priceAt : String → K → K,
        lastClose (fetchStockData priceAt barJitter symbol interval now) =
          some (priceAt symbol now)) ↔
      (lastBar interval.bucketSeconds now : K) = now := by
  simp only [lastClose_fetchStockData, Option.some_inj]
  constructor
  · intro h
    -- the price may be any function, also the time itself
    exact h fun _ t => t
  · intro h priceAt
    rw [h]

variable [IsStrictOrderedRing K]

/-- An instant is the start of its bucket only on the boundary of a bucket. -/
theorem lastBar_eq_iff {bucket : ℤ} (hbucket : bucket ≠ 0) (now : K) :
    (lastBar bucket now : K) = now ↔ ∃ m : ℤ, now = (m * bucket : ℤ) := by
  constructor
  · intro h
    exact ⟨truncate now / bucket, h.symm⟩
  · rintro ⟨m, rfl⟩
    rw [lastBar, truncate_intCast, Int.mul_ediv_cancel _ hbucket]

theorem Interval.bucketSeconds_pos (interval : Interval) : 0 < interval.bucketSeconds := by
  cases interval <;> decide

/-- Whatever the price function is, the last bar closes with the spot price if and only if the
instant is the boundary of a bucket of the interval. -/
theorem lastClose_eq_priceAt_iff (barJitter : String → ℤ → K) (symbol : String)
    (interval : Interval) (now : K) :
    (∀ priceAt : String → K → K,
        lastClose (fetchStockData priceAt barJitter symbol interval now) =
          some (priceAt symbol now)) ↔
      ∃ m : ℤ, now = (m * interval.bucketSeconds : ℤ) := by
  rw [forall_priceAt_iff, lastBar_eq_iff interval.bucketSeconds_pos.ne']

/-- At two hours an hourly bar has just begun. -/
theorem lastClose_eq_priceAt_iff_twoHours :
    (∀ priceAt : String → ℚ → ℚ,
        lastClose (fetchStockData priceAt (fun _ _ => 0) "AAPL" .m60 7200) =
          some (priceAt "AAPL" 7200)) ↔
      ∃ m : ℤ, (7200 : ℚ) = (m * Interval.m60.bucketSeconds : ℤ) :=
  lastClose_eq_priceAt_iff (fun _ _ => 0) "AAPL" .m60 7200

/-- Half a minute into a bucket of a minute, the last bar still closes with the price at its
start. -/
theorem lastClose_halfMinute :
    lastClose (fetchStockData (fun _ t => t) (fun _ _ => 0) "AAPL" .m1 (90 : ℚ)) = some 60 ∧
      (60 : ℚ) ≠ 90 := by
  rw [lastClose_fetchStockData]
  exact ⟨by rfl, by norm_num⟩

/-- The quotes of all intervals are the spot price at midnight only. -/
theorem forall_lastClose_eq_priceAt_iff (barJitter : String → ℤ → K) (symbol : String) (now : K) :
    (∀ (interval : Interval) (priceAt : String → K → K),
        lastClose (fetchStockData priceAt barJitter symbol interval now) =
          some (priceAt symbol now)) ↔
      ∃ day : ℤ, now = (day * 86400 : ℤ) := by
  simp only [forall_priceAt_iff, lastBar_eq_iff (Interval.bucketSeconds_pos _).ne']
  constructor
  · intro h
    -- a day is the largest bucket
    exact h .d1
  · rintro ⟨day, rfl⟩ interval
    have hdvd : interval.bucketSeconds ∣ 86400 := by
      cases interval <;> decide
    obtain ⟨buckets, hbuckets⟩ := hdvd
    refine ⟨day * buckets, ?_⟩
    rw [hbuckets, mul_assoc, mul_comm buckets]

end Provider

end TradingSimulator
