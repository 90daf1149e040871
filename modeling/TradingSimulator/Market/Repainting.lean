import TradingSimulator.Market.SyntheticProvider
import Mathlib.Algebra.Order.Floor.Ring
import Mathlib.Tactic.Linarith
import Mathlib.Tactic.Ring

/-!
# Repainting

A bar that has been shown should not change when the chart is fetched again. `_synthetic_df`
(`app/market/fetch_stock_data.py`) opens a bar with the close of the one before, and the first bar
of its window, which has none before it, with its own close. As the window moves on, every bar
becomes the first one once, and is repainted unless its own close is the one before
(`neverRepaints_iff`).
-/

namespace TradingSimulator

open Rounding

/-- `_BUCKET_SECONDS.get(interval, 60)`: an interval that is not in the table has the bucket of a
minute. -/
def intervalOf (interval : String) : Interval :=
  if interval = "1m" then .m1
  else if interval = "2m" then .m2
  else if interval = "5m" then .m5
  else if interval = "15m" then .m15
  else if interval = "30m" then .m30
  else if interval = "60m" then .m60
  else if interval = "90m" then .m90
  else if interval = "1d" then .d1
  else .m1

/-- The `i`-th opening: the close of the bar before, and of the bar itself for the first. -/
theorem getElem_opens {A : Type} {closes : List A} {i : ℕ} (hi : i < closes.length)
    (hi' : i < (closes.take 1 ++ closes.dropLast).length) :
    (closes.take 1 ++ closes.dropLast)[i] = closes.get ⟨i - 1, by omega⟩ := by
  have hone : (closes.take 1).length = 1 := by
    rw [List.length_take]
    omega
  rcases Nat.eq_zero_or_pos i with rfl | hpos
  · rw [List.getElem_append_left (by omega), List.getElem_take]
    rfl
  · rw [List.getElem_append_right (by omega), List.getElem_dropLast]
    simp only [hone, List.get_eq_getElem]

section Rows

variable {K : Type} [Field K] [LinearOrder K] [FloorRing K]

/-- The row of the bar at the time `t` that opens at `o`. -/
def barRow (priceAt : String → K → K) (barJitter : String → ℤ → K) (symbol : String) (t : ℤ)
    (o : K) : Bar K where
  time := t
  openPrice := o
  high := max o (priceAt symbol t) *
    (1 + (15 / 10 ^ 4 : ℚ) + (4 / 10 ^ 3 : ℚ) * barJitter symbol t)
  low := min o (priceAt symbol t) *
    (1 - (15 / 10 ^ 4 : ℚ) - (4 / 10 ^ 3 : ℚ) * barJitter symbol (t + 1))
  close := priceAt symbol t
  volume := (50000 + truncate (barJitter symbol (t + 2) * (950000 : ℚ)) : ℤ)

/-- The number of the running bucket: `now // bucket`. -/
def bucketNumber (bucket : ℤ) (now : K) : ℤ := truncate now / bucket

/-- The time of the first bar. -/
def firstBar (bucket : ℤ) (now : K) : ℤ := (bucketNumber bucket now - (HISTORY_BARS - 1)) * bucket

/-- What the bar at the time `t` opens with. -/
def openAt (priceAt : String → K → K) (symbol : String) (bucket : ℤ) (now : K) (t : ℤ) : K :=
  if t = firstBar bucket now then priceAt symbol t else priceAt symbol ((t - bucket : ℤ) : K)

variable {priceAt : String → K → K} {barJitter : String → ℤ → K} {symbol : String}
  {interval : Interval} {now : K}

theorem length_barTimes (bucket : ℤ) (now : K) : (barTimes bucket now).length = HISTORY_BARS := by
  simp [barTimes]

theorem getElem_barTimes (bucket : ℤ) (now : K) (i : ℕ) (hi : i < (barTimes bucket now).length) :
    (barTimes bucket now)[i] = firstBar bucket now + i * bucket := by
  simp only [barTimes, lastBar, firstBar, bucketNumber, List.getElem_map, List.getElem_range]
  ring

/-- The bar at the first time opens with its own close, another with the close of the bar before. -/
theorem openAt_firstBar_add {bucket : ℤ} (hbucket : 0 < bucket) (i : ℕ) :
    openAt priceAt symbol bucket now (firstBar bucket now + i * bucket) =
      priceAt symbol ((firstBar bucket now + (i - 1 : ℕ) * bucket : ℤ) : K) := by
  rcases Nat.eq_zero_or_pos i with rfl | hpos
  · simp [openAt]
  · have hne : firstBar bucket now + i * bucket ≠ firstBar bucket now := by
      have : 0 < (i : ℤ) * bucket := by positivity
      omega
    rw [openAt, if_neg hne]
    -- the bar before is one bucket earlier
    congr 2
    push_cast [hpos]
    ring

/-- The frame always has the bars of the history. -/
theorem length_syntheticDf :
    (syntheticDf priceAt barJitter symbol interval now).length = HISTORY_BARS := by
  have hbars : 1 ≤ HISTORY_BARS := by decide
  simp only [syntheticDf, List.length_zipWith, List.length_zip, List.length_append,
    List.length_take, List.length_dropLast, List.length_map, length_barTimes]
  omega

/-- The `i`-th bar of a frame. -/
theorem getElem_syntheticDf (i : ℕ)
    (hi : i < (syntheticDf priceAt barJitter symbol interval now).length) :
    (syntheticDf priceAt barJitter symbol interval now)[i] = barRow priceAt barJitter symbol
      (firstBar interval.bucketSeconds now + i * interval.bucketSeconds)
      (openAt priceAt symbol interval.bucketSeconds now
        (firstBar interval.bucketSeconds now + i * interval.bucketSeconds)) := by
  have hbars : i < (barTimes interval.bucketSeconds now).length := by
    rwa [length_syntheticDf, ← length_barTimes interval.bucketSeconds now] at hi
  rw [openAt_firstBar_add interval.bucketSeconds_pos]
  simp only [syntheticDf, List.getElem_zipWith, List.getElem_zip, List.getElem_map,
    getElem_barTimes]
  rw [getElem_opens (by rwa [List.length_map])]
  simp only [List.get_eq_getElem, List.getElem_map, getElem_barTimes]
  rfl

/-- The bars of a frame. -/
theorem mem_syntheticDf {bar : Bar K} :
    bar ∈ syntheticDf priceAt barJitter symbol interval now ↔
      ∃ i < HISTORY_BARS, bar = barRow priceAt barJitter symbol
        (firstBar interval.bucketSeconds now + i * interval.bucketSeconds)
        (openAt priceAt symbol interval.bucketSeconds now
          (firstBar interval.bucketSeconds now + i * interval.bucketSeconds)) := by
  rw [List.mem_iff_getElem]
  constructor
  · rintro ⟨i, hi, rfl⟩
    refine ⟨i, ?_, getElem_syntheticDf i hi⟩
    rwa [length_syntheticDf] at hi
  · rintro ⟨i, hi, rfl⟩
    have hi' : i < (syntheticDf priceAt barJitter symbol interval now).length := by
      rwa [length_syntheticDf]
    exact ⟨i, hi', getElem_syntheticDf i hi'⟩

end Rows

section Repaints

variable {K : Type} [Field K] [LinearOrder K] [FloorRing K]

/-- The bars with the same time in both frames are the same bars. -/
def NeverRepaints (df1 df2 : List (Bar K)) : Prop :=
  ∀ bar1 ∈ df1, ∀ bar2 ∈ df2, bar1.time = bar2.time → bar1 = bar2

theorem bucketNumber_mono {bucket : ℤ} (hbucket : 0 < bucket) {now1 now2 : K}
    (hle : now1 ≤ now2) : bucketNumber bucket now1 ≤ bucketNumber bucket now2 :=
  Int.ediv_le_ediv hbucket (truncate_mono hle)

@[simp]
theorem barRow_time (priceAt : String → K → K) (barJitter : String → ℤ → K) (symbol : String)
    (t : ℤ) (o : K) : (barRow priceAt barJitter symbol t o).time = t := rfl

/-- A bar shows the value that it opens with, also through its high and its low. -/
theorem barRow_inj {priceAt : String → K → K} {barJitter : String → ℤ → K} {symbol : String}
    {t : ℤ} {o1 o2 : K} :
    barRow priceAt barJitter symbol t o1 = barRow priceAt barJitter symbol t o2 ↔ o1 = o2 := by
  constructor
  · intro h
    exact congrArg Bar.openPrice h
  · rintro rfl
    rfl

variable {priceAt : String → K → K} {symbol : String} {bucket : ℤ} {now1 now2 : K}

/-- A bar that is the first of neither window opens the same in both. -/
theorem openAt_eq_of_ne {t : ℤ} (h1 : t ≠ firstBar bucket now1) (h2 : t ≠ firstBar bucket now2) :
    openAt priceAt symbol bucket now1 t = openAt priceAt symbol bucket now2 t := by
  rw [openAt, openAt, if_neg h1, if_neg h2]

/-- The first bar of the later window is repainted unless its close is the one before. -/
theorem openAt_firstBar_iff (hne : firstBar bucket now1 ≠ firstBar bucket now2) :
    openAt priceAt symbol bucket now1 (firstBar bucket now2) =
        openAt priceAt symbol bucket now2 (firstBar bucket now2) ↔
      priceAt symbol ((firstBar bucket now2 - bucket : ℤ) : K) =
        priceAt symbol (firstBar bucket now2) := by
  rw [openAt, openAt, if_neg (Ne.symm hne), if_pos rfl]

/-- Where the first bar of the later window lies in the earlier one. -/
theorem firstBar_eq_add (hle : bucketNumber bucket now1 ≤ bucketNumber bucket now2) :
    firstBar bucket now2 = firstBar bucket now1 +
      ((bucketNumber bucket now2 - bucketNumber bucket now1).toNat : ℤ) * bucket := by
  rw [Int.toNat_of_nonneg (by omega), firstBar, firstBar]
  ring

/-- The bars of the two frames at one time are as many buckets apart as the windows. -/
theorem index_of_time_eq (hbucket : 0 < bucket) {i j : ℕ}
    (htime : firstBar bucket now1 + i * bucket = firstBar bucket now2 + j * bucket) :
    bucketNumber bucket now1 + i = bucketNumber bucket now2 + j := by
  have hmul :
      (bucketNumber bucket now1 + i) * bucket = (bucketNumber bucket now2 + j) * bucket := by
    simp only [firstBar] at htime
    linarith
  exact mul_right_cancel₀ hbucket.ne' hmul

theorem firstBar_eq_iff (hbucket : 0 < bucket) :
    firstBar bucket now1 = firstBar bucket now2 ↔
      bucketNumber bucket now1 = bucketNumber bucket now2 := by
  rw [firstBar, firstBar, mul_left_inj' hbucket.ne', sub_left_inj]

/-- A bar of both windows opens the same, where the first bar of the later one closes where the bar
before it does. -/
theorem openAt_eq_of_steady (hbucket : 0 < bucket)
    (hlt : bucketNumber bucket now1 < bucketNumber bucket now2)
    (hprice : priceAt symbol ((firstBar bucket now2 - bucket : ℤ) : K) =
      priceAt symbol (firstBar bucket now2)) {i j : ℕ}
    (htime : firstBar bucket now1 + i * bucket = firstBar bucket now2 + j * bucket) :
    openAt priceAt symbol bucket now1 (firstBar bucket now2 + j * bucket) =
      openAt priceAt symbol bucket now2 (firstBar bucket now2 + j * bucket) := by
  have hindex := index_of_time_eq hbucket htime
  have hne : firstBar bucket now1 ≠ firstBar bucket now2 := fun heq =>
    hlt.ne ((firstBar_eq_iff hbucket).mp heq)
  rcases Nat.eq_zero_or_pos j with rfl | hpos
  · rw [Nat.cast_zero, zero_mul, add_zero, openAt_firstBar_iff hne]
    exact hprice
  · apply openAt_eq_of_ne
    · -- the earlier window starts before the later one
      rw [← htime]
      have : 0 < (i : ℤ) * bucket := mul_pos (by omega) hbucket
      omega
    · have : 0 < (j : ℤ) * bucket := mul_pos (by omega) hbucket
      omega

variable {barJitter : String → ℤ → K} {interval : Interval}

/-- Frames that share the first bar of the later window show it alike only where its close is the
one before. -/
theorem priceAt_eq_of_neverRepaints
    (hlt : bucketNumber interval.bucketSeconds now1 < bucketNumber interval.bucketSeconds now2)
    (hoverlap : bucketNumber interval.bucketSeconds now2 <
      bucketNumber interval.bucketSeconds now1 + HISTORY_BARS)
    (h : NeverRepaints (syntheticDf priceAt barJitter symbol interval now1)
      (syntheticDf priceAt barJitter symbol interval now2)) :
    priceAt symbol ((firstBar interval.bucketSeconds now2 - interval.bucketSeconds : ℤ) : K) =
      priceAt symbol (firstBar interval.bucketSeconds now2) := by
  have hne : firstBar interval.bucketSeconds now1 ≠ firstBar interval.bucketSeconds now2 :=
    fun heq => hlt.ne ((firstBar_eq_iff interval.bucketSeconds_pos).mp heq)
  rw [← openAt_firstBar_iff hne, ← barRow_inj (t := firstBar interval.bucketSeconds now2)]
  apply h
  · -- it stands further on in the earlier frame
    rw [mem_syntheticDf]
    refine ⟨(bucketNumber interval.bucketSeconds now2 -
      bucketNumber interval.bucketSeconds now1).toNat, by omega, ?_⟩
    rw [← firstBar_eq_add hlt.le]
  · rw [mem_syntheticDf]
    refine ⟨0, by decide, ?_⟩
    simp
  · rfl

/-- Whatever the prices and the jitter are, two frames of an interval show the same bars if and only
if they are of one bucket, or share no bar, or the first bar of the later one closes where the bar
before it does. -/
theorem neverRepaints_iff (priceAt : String → K → K) (barJitter : String → ℤ → K) (symbol : String)
    (interval : String) (now1 now2 : K) (hle : now1 ≤ now2) :
    NeverRepaints (syntheticDf priceAt barJitter symbol (intervalOf interval) now1)
        (syntheticDf priceAt barJitter symbol (intervalOf interval) now2) ↔
      bucketNumber (intervalOf interval).bucketSeconds now1 =
          bucketNumber (intervalOf interval).bucketSeconds now2 ∨
        bucketNumber (intervalOf interval).bucketSeconds now1 + HISTORY_BARS ≤
          bucketNumber (intervalOf interval).bucketSeconds now2 ∨
        priceAt symbol ((firstBar (intervalOf interval).bucketSeconds now2 -
            (intervalOf interval).bucketSeconds : ℤ) : K) =
          priceAt symbol (firstBar (intervalOf interval).bucketSeconds now2) := by
  have hbucket := (intervalOf interval).bucketSeconds_pos
  have hmono := bucketNumber_mono hbucket hle
  constructor
  · intro h
    by_contra hnot
    push Not at hnot
    obtain ⟨hne, hoverlap, hprice⟩ := hnot
    exact hprice (priceAt_eq_of_neverRepaints (lt_of_le_of_ne hmono hne) hoverlap h)
  · intro hcond bar1 hbar1 bar2 hbar2 htime
    rw [mem_syntheticDf] at hbar1 hbar2
    obtain ⟨i, hi, rfl⟩ := hbar1
    obtain ⟨j, hj, rfl⟩ := hbar2
    rw [barRow_time, barRow_time] at htime
    rw [htime, barRow_inj]
    by_cases hsame : bucketNumber (intervalOf interval).bucketSeconds now1 =
        bucketNumber (intervalOf interval).bucketSeconds now2
    · -- the windows are the same
      rw [openAt, openAt, (firstBar_eq_iff hbucket).mpr hsame]
    obtain hsame' | hapart | hprice := hcond
    · exact absurd hsame' hsame
    · -- the later window starts behind the last bar of the earlier one
      have hindex := index_of_time_eq hbucket htime
      omega
    · exact openAt_eq_of_steady hbucket (lt_of_le_of_ne hmono hsame) hprice htime

/-- Half a minute later the chart of a minute shows the same bars. -/
theorem neverRepaints_iff_halfMinute :
    NeverRepaints (syntheticDf (fun _ t => t) (fun _ _ => 0) "AAPL" (intervalOf "1m") (12000 : ℚ))
        (syntheticDf (fun _ t => t) (fun _ _ => 0) "AAPL" (intervalOf "1m") (12030 : ℚ)) := by
  apply (neverRepaints_iff (fun _ t => t) (fun _ _ => 0) "AAPL" "1m" (12000 : ℚ) 12030
    (by norm_num)).mpr
  exact .inl (by decide +kernel)

/-- A minute later, the bar that was the second one opens with its own close. -/
theorem not_neverRepaints_minute :
    ¬ ∀ (priceAt : String → ℚ → ℚ) (barJitter : String → ℤ → ℚ) (symbol interval : String)
      (now1 now2 : ℚ), now1 ≤ now2 →
        NeverRepaints (syntheticDf priceAt barJitter symbol (intervalOf interval) now1)
          (syntheticDf priceAt barJitter symbol (intervalOf interval) now2) := by
  intro h
  have hbars := h (fun _ t => t) (fun _ _ => 0) "AAPL" "1m" 12000 12060 (by norm_num)
    _ (mem_syntheticDf.mpr ⟨1, by decide, rfl⟩) _ (mem_syntheticDf.mpr ⟨0, by decide, rfl⟩)
    (by decide +kernel)
  have hopens : (60 : ℚ) = 120 := congrArg Bar.openPrice hbars
  norm_num at hopens

end Repaints

end TradingSimulator
