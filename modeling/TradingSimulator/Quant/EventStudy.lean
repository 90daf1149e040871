import TradingSimulator.Library.Correlation
import TradingSimulator.Library.Interpolation
import TradingSimulator.Library.Rounding
import TradingSimulator.Library.Series
import Mathlib.Data.Sign.Basic
import Mathlib.Data.Fin.Tuple.Sort
import Mathlib.Tactic.NormNum

/-!
# The event study of the sentiments

`_event_study` (`app/quant/sentiment.py`) simulates earnings events whose later return follows their
sentiment, and reports how well the sentiment predicts the return: the average paths of the
positive, the negative and the neutral events, the correlation, the share of equal signs, the
difference between the two sides with its statistic, and a scatter of the events. In exact
arithmetic, with the draws of the generator, the square root and the sort of numpy as parameters.

Whatever is drawn, the report is consistent (`eventStudy_spec`): the three paths add up to the path
of all events, and without noise the prediction is perfect.
-/

namespace TradingSimulator.EventStudy

open Correlation Interpolation Rounding SampleMoments

/-! ### The study -/

/-- `n_events`. -/
def nEvents : ℕ := 240

/-- `L`, the number of the days from `-pre` to `post`. -/
def days : ℕ := 16

/-- `window`. -/
def window : List ℤ := (List.range days).map fun day => (day : ℤ) - 5

/-- What the generator draws: for every event its sentiment, the noise of its return, and the noise
of the days before and after it. -/
structure Draws (K : Type) where
  sentiment : Fin nEvents → K
  noise : Fin nEvents → K
  before : Fin nEvents → Fin 5 → K
  after : Fin nEvents → Fin 10 → K

/-- The entry `signal`. -/
structure Signal (K : Type) where
  /-- `none` is NaN. -/
  ic : Option K
  hitRate : K
  longShort : K
  tStat : K
  postReturnPos : K
  postReturnNeg : K

/-- What `_event_study` returns. -/
structure Study (K : Type) where
  window : List ℤ
  caarPositive : List K
  caarNegative : List K
  caarNeutral : List K
  nEvents : ℕ
  nPositive : ℕ
  nNegative : ℕ
  nNeutral : ℕ
  signal : Signal K
  scatter : List (K × K)

section Definitions

variable {K : Type} [Field K] [LinearOrder K] (beta : K) (draws : Draws K)

/-- `sentiments`. -/
def sentiments (e : Fin nEvents) : K := clip (draws.sentiment e) (-1) 1

/-- `car`. -/
def car (e : Fin nEvents) : K := beta * sentiments draws e + draws.noise e

/-- `jump`. -/
def jump (e : Fin nEvents) : K := ((45 : ℕ) : K) / ((100 : ℕ) : K) * car beta draws e

/-- `ar`: noise, the reaction to the announcement, and a drift with noise. -/
def abnormalReturns (e : Fin nEvents) : List K :=
  -- what the announcement leaves of the return comes in equal parts afterwards
  let drift := (car beta draws e - jump beta draws e) / ((10 : ℕ) : K)
  List.ofFn (draws.before e) ++
    jump beta draws e :: List.ofFn fun day => drift + draws.after e day

/-- `paths`. -/
def path (day : ℕ) (e : Fin nEvents) : K :=
  (Series.cumsum (abnormalReturns beta draws e)).getD day 0

/-- `pos_m`. -/
def positive : Finset (Fin nEvents) :=
  Finset.univ.filter fun e => 1 / ((10 : ℕ) : K) < sentiments draws e

/-- `neg_m`. -/
def negative : Finset (Fin nEvents) :=
  Finset.univ.filter fun e => sentiments draws e < -(1 / ((10 : ℕ) : K))

/-- `neu_m`. -/
def neutral : Finset (Fin nEvents) := (positive draws ∪ negative draws)ᶜ

/-- `mean` under a mask. -/
def meanOn (mask : Finset (Fin nEvents)) (x : Fin nEvents → K) : K := (∑ e ∈ mask, x e) / mask.card

/-- `var(ddof=1)` under a mask. -/
def varOn (mask : Finset (Fin nEvents)) (x : Fin nEvents → K) : K :=
  (∑ e ∈ mask, (x e - meanOn mask x) ^ 2) / ((mask.card : K) - 1)

variable [FloorRing K]

/-- `caar`. -/
def caar (mask : Finset (Fin nEvents)) : List K :=
  if mask.Nonempty then
    (List.range days).map fun day =>
      roundTo 3 (meanOn mask (path beta draws day) * ((100 : ℕ) : K))
  else List.replicate days 0

/-- The share of the events whose return has the sign of their sentiment, in percent. -/
def hit : K :=
  meanOn Finset.univ (fun e =>
    if SignType.sign (sentiments draws e) = SignType.sign (car beta draws e) then 1 else 0) *
      ((100 : ℕ) : K)

variable (sqrt : K → K) (argsort : (Fin nEvents → K) → Fin nEvents → Fin nEvents)

/-- `ls` and `tstat`. -/
def spread : K × K :=
  let pos := positive draws
  let neg := negative draws
  let difference := meanOn pos (car beta draws) - meanOn neg (car beta draws)
  if 1 < pos.card ∧ 1 < neg.card then
    -- two classes without variance have no statistic
    let se := sqrt (varOn pos (car beta draws) / pos.card + varOn neg (car beta draws) / neg.card)
    (difference * ((100 : ℕ) : K), if 0 < se then difference / se else 0)
  else (0, 0)

/-- `post_return_pos` and `post_return_neg`. -/
def postReturn (mask : Finset (Fin nEvents)) : K :=
  if mask.Nonempty then roundTo 2 (meanOn mask (car beta draws) * ((100 : ℕ) : K)) else 0

/-- The integer parts of `np.linspace(0, n_events - 1, 120)`. -/
def sampleIndex (i : Fin 120) : Fin nEvents := ⟨i * 239 / 119, by unfold nEvents; omega⟩

/-- `scatter`. -/
def scatter : List (K × K) :=
  List.ofFn fun i =>
    let e := argsort (sentiments draws) (sampleIndex i)
    (roundTo 3 (sentiments draws e), roundTo 3 (car beta draws e * ((100 : ℕ) : K)))

/-- `_event_study`. -/
def eventStudy : Study K where
  window := window
  caarPositive := caar beta draws (positive draws)
  caarNegative := caar beta draws (negative draws)
  caarNeutral := caar beta draws (neutral draws)
  nEvents := nEvents
  nPositive := (positive draws).card
  nNegative := (negative draws).card
  nNeutral := (neutral draws).card
  signal := {
    ic := (correlation sqrt (sentiments draws) (car beta draws)).map (roundTo 3)
    hitRate := roundTo 1 (hit beta draws)
    longShort := roundTo 2 (spread beta draws sqrt).1
    tStat := roundTo 2 (spread beta draws sqrt).2
    postReturnPos := postReturn beta draws (positive draws)
    postReturnNeg := postReturn beta draws (negative draws) }
  scatter := scatter beta draws argsort

end Definitions

/-! ### The classes of events -/

section Proofs

variable {K : Type} [Field K] [LinearOrder K] [IsStrictOrderedRing K] {beta : K} {draws : Draws K}

/-- No sentiment is above the threshold and below its negation. -/
theorem disjoint_positive_negative : Disjoint (positive draws) (negative draws) := by
  rw [Finset.disjoint_left]
  intro e hpos hneg
  rw [positive, Finset.mem_filter] at hpos
  rw [negative, Finset.mem_filter] at hneg
  have htenth : (0 : K) < 1 / ((10 : ℕ) : K) := by positivity
  linarith [hpos.2, hneg.2]

/-- Every event is in exactly one class. -/
theorem sum_classes (draws : Draws K) (x : Fin nEvents → K) :
    ∑ e ∈ positive draws, x e + ∑ e ∈ negative draws, x e + ∑ e ∈ neutral draws, x e =
      ∑ e, x e := by
  rw [← Finset.sum_union disjoint_positive_negative, neutral, Finset.sum_add_sum_compl]

theorem card_classes :
    (positive draws).card + (negative draws).card + (neutral draws).card = nEvents := by
  rw [← Finset.card_union_of_disjoint disjoint_positive_negative, neutral,
    Finset.card_add_card_compl, Fintype.card_fin]

/-- The mean of a class times its size, also for the empty one. -/
theorem card_mul_meanOn (mask : Finset (Fin nEvents)) (x : Fin nEvents → K) :
    (mask.card : K) * meanOn mask x = ∑ e ∈ mask, x e := by
  rcases mask.eq_empty_or_nonempty with rfl | hne
  · simp
  · rw [meanOn, mul_div_cancel₀ _ (Nat.cast_ne_zero.mpr hne.card_pos.ne')]

theorem meanOn_nonneg {mask : Finset (Fin nEvents)} {x : Fin nEvents → K}
    (h : ∀ e ∈ mask, 0 ≤ x e) : 0 ≤ meanOn mask x :=
  div_nonneg (Finset.sum_nonneg h) (Nat.cast_nonneg _)

theorem meanOn_nonpos {mask : Finset (Fin nEvents)} {x : Fin nEvents → K}
    (h : ∀ e ∈ mask, x e ≤ 0) : meanOn mask x ≤ 0 :=
  div_nonpos_of_nonpos_of_nonneg (Finset.sum_nonpos h) (Nat.cast_nonneg _)

variable [FloorRing K]

/-- A displayed curve is the one of its events up to the rounding. -/
theorem exists_caar (beta : K) (draws : Draws K) (mask : Finset (Fin nEvents)) {day : ℕ}
    (hday : day < days) :
    ∃ c, (caar beta draws mask)[day]? = some c ∧
      |(mask.card : K) * c - (∑ e ∈ mask, path beta draws day e) * ((100 : ℕ) : K)| ≤
        mask.card * (1 / 2000) := by
  rw [caar]
  split_ifs with hne
  · refine ⟨_, by rw [List.getElem?_map, List.getElem?_range hday, Option.map_some], ?_⟩
    have hround := abs_roundTo_sub_le 3 (meanOn mask (path beta draws day) * ((100 : ℕ) : K))
    rw [← card_mul_meanOn, mul_assoc, ← mul_sub, abs_mul, Nat.abs_cast]
    refine mul_le_mul_of_nonneg_left (hround.trans_eq ?_) (Nat.cast_nonneg _)
    norm_num
  · rw [Finset.not_nonempty_iff_eq_empty] at hne
    exact ⟨0, by rw [List.getElem?_replicate, if_pos hday], by simp [hne]⟩

omit [IsStrictOrderedRing K] in
theorem length_caar (mask : Finset (Fin nEvents)) : (caar beta draws mask).length = days := by
  rw [caar]
  split_ifs
  · rw [List.length_map, List.length_range]
  · rw [List.length_replicate]

/-- The three curves, weighted by their numbers of events, add up to the one of all events. -/
theorem exists_curves {day : ℕ} (hday : day < days) :
    ∃ p n u, (caar beta draws (positive draws))[day]? = some p ∧
      (caar beta draws (negative draws))[day]? = some n ∧
      (caar beta draws (neutral draws))[day]? = some u ∧
      |((positive draws).card * p + (negative draws).card * n + (neutral draws).card * u) /
          (nEvents : K) - meanOn Finset.univ (path beta draws day) * ((100 : ℕ) : K)| ≤
        1 / 2000 := by
  obtain ⟨p, hp, hpos⟩ := exists_caar beta draws (positive draws) hday
  obtain ⟨n, hn, hneg⟩ := exists_caar beta draws (negative draws) hday
  obtain ⟨u, hu, hneu⟩ := exists_caar beta draws (neutral draws) hday
  refine ⟨p, n, u, hp, hn, hu, ?_⟩
  have hall := card_mul_meanOn Finset.univ (path beta draws day)
  rw [← sum_classes draws, Finset.card_univ, Fintype.card_fin] at hall
  have hcard : ((positive draws).card : K) + (negative draws).card + (neutral draws).card =
      nEvents := by
    exact_mod_cast card_classes
  have hpositive : (0 : K) < nEvents := Nat.cast_pos.mpr (by decide)
  -- the errors of the three add up to that of their number
  rw [abs_le] at hpos hneg hneu
  rw [div_sub' hpositive.ne', abs_div, abs_of_pos hpositive, div_le_iff₀ hpositive, abs_le,
    ← mul_assoc, hall]
  constructor <;> linarith

/-! ### The statistics -/

/-- `np.argsort`: an order in which the entries do not fall. -/
structure IsArgsort (argsort : (Fin nEvents → K) → Fin nEvents → Fin nEvents) : Prop where
  bijective : ∀ xs : Fin nEvents → K, Function.Bijective (argsort xs)
  monotone : ∀ xs : Fin nEvents → K, Monotone fun i => xs (argsort xs i)

/-- The hit rate is a percentage. -/
theorem hit_mem (beta : K) (draws : Draws K) : 0 ≤ hit beta draws ∧ hit beta draws ≤ 100 := by
  have hnonneg : ∀ e ∈ (Finset.univ : Finset (Fin nEvents)), (0 : K) ≤
      if SignType.sign (sentiments draws e) = SignType.sign (car beta draws e) then 1 else 0 := by
    intro e _
    split_ifs
    · exact zero_le_one
    · exact le_rfl
  have hle : ∀ e ∈ (Finset.univ : Finset (Fin nEvents)),
      (if SignType.sign (sentiments draws e) = SignType.sign (car beta draws e) then 1 else 0) ≤
        (1 : K) := by
    intro e _
    split_ifs
    · exact le_rfl
    · exact zero_le_one
  -- a mean of zeros and ones
  have hsum := Finset.sum_le_card_nsmul _ _ _ hle
  have hcard : (0 : K) < (Finset.univ : Finset (Fin nEvents)).card := by
    rw [Finset.card_fin]
    exact Nat.cast_pos.mpr (by decide)
  rw [nsmul_one] at hsum
  rw [hit, Nat.cast_ofNat]
  constructor
  · exact mul_nonneg (meanOn_nonneg hnonneg) (by norm_num)
  · exact mul_le_of_le_one_left (by norm_num) ((div_le_one hcard).mpr hsum)

/-- The difference that is shown is the one of the two returns that are shown, up to the rounding of
the three. -/
theorem abs_spread_sub_le {sqrt : K → K} (hpos : 1 < (positive draws).card)
    (hneg : 1 < (negative draws).card) :
    |roundTo 2 (spread beta draws sqrt).1 -
        (postReturn beta draws (positive draws) - postReturn beta draws (negative draws))| ≤
      3 / 200 := by
  -- both classes have a variance, so the spread is the difference of their means
  have hspread : (spread beta draws sqrt).1 =
      (meanOn (positive draws) (car beta draws) - meanOn (negative draws) (car beta draws)) *
        ((100 : ℕ) : K) := by
    rw [spread]
    simp only [hpos, hneg, and_self, if_true]
  have hposNe : (positive draws).Nonempty := Finset.card_pos.mp (by omega)
  have hnegNe : (negative draws).Nonempty := Finset.card_pos.mp (by omega)
  rw [hspread, postReturn, postReturn, if_pos hposNe, if_pos hnegNe, sub_mul]
  generalize meanOn (positive draws) (car beta draws) * ((100 : ℕ) : K) = p
  generalize meanOn (negative draws) (car beta draws) * ((100 : ℕ) : K) = n
  -- three roundings to two decimals, each off by half a hundredth at most
  have hd := abs_le.mp (abs_roundTo_sub_le 2 (p - n))
  have hp := abs_le.mp (abs_roundTo_sub_le 2 p)
  have hn := abs_le.mp (abs_roundTo_sub_le 2 n)
  norm_num at hd hp hn
  rw [abs_le]
  constructor <;> linarith [hd.1, hd.2, hp.1, hp.2, hn.1, hn.2]

omit [IsStrictOrderedRing K] [FloorRing K] in
/-- With at most one event in a class there is no difference, and no statistic. -/
theorem spread_of_few {sqrt : K → K}
    (hfew : (positive draws).card ≤ 1 ∨ (negative draws).card ≤ 1) :
    spread beta draws sqrt = (0, 0) := by
  rw [spread]
  exact if_neg fun hmany => hfew.elim hmany.1.not_ge hmany.2.not_ge

/-- The statistic never has the sign against that of the difference. -/
theorem spread_sign (beta : K) (draws : Draws K) (sqrt : K → K) :
    (0 ≤ (spread beta draws sqrt).1 → 0 ≤ (spread beta draws sqrt).2) ∧
      ((spread beta draws sqrt).1 ≤ 0 → (spread beta draws sqrt).2 ≤ 0) := by
  have hhundred : (0 : K) < ((100 : ℕ) : K) := by positivity
  rw [spread]
  dsimp only
  split_ifs with hmany hse
  · refine ⟨fun h => ?_, fun h => ?_⟩
    · exact div_nonneg (nonneg_of_mul_nonneg_left h hhundred) hse.le
    · exact div_nonpos_of_nonpos_of_nonneg (nonpos_of_mul_nonpos_left h hhundred) hse.le
  · exact ⟨fun _ => le_rfl, fun _ => le_rfl⟩
  · exact ⟨fun _ => le_rfl, fun _ => le_rfl⟩

/-- The rounding keeps the sign of a displayed return. -/
theorem postReturn_sign (beta : K) (draws : Draws K) (mask : Finset (Fin nEvents)) :
    (0 ≤ meanOn mask (car beta draws) → 0 ≤ postReturn beta draws mask) ∧
      (meanOn mask (car beta draws) ≤ 0 → postReturn beta draws mask ≤ 0) := by
  have hhundred : (0 : K) ≤ ((100 : ℕ) : K) := Nat.cast_nonneg _
  rw [postReturn]
  split_ifs
  · exact ⟨fun h => roundTo_nonneg (mul_nonneg h hhundred),
      fun h => roundTo_nonpos (mul_nonpos_of_nonpos_of_nonneg h hhundred)⟩
  · exact ⟨fun _ => le_rfl, fun _ => le_rfl⟩

theorem strictMono_sampleIndex : StrictMono sampleIndex := by
  intro i j hij
  rw [Fin.lt_def] at hij
  simp only [sampleIndex, Fin.mk_lt_mk]
  omega

/-! ### Without noise -/

omit [IsStrictOrderedRing K] [FloorRing K] in
theorem car_of_noiseless (hnoise : ∀ e, draws.noise e = 0) :
    car beta draws = fun e => beta * sentiments draws e := by
  funext e
  rw [car, hnoise, add_zero]

/-- Every return then has the sign of its sentiment. -/
theorem hit_of_noiseless (hbeta : 0 < beta) (hnoise : ∀ e, draws.noise e = 0) :
    hit beta draws = 100 := by
  have hsign : ∀ e, SignType.sign (sentiments draws e) = SignType.sign (car beta draws e) := by
    intro e
    rw [car_of_noiseless hnoise, sign_mul, sign_pos hbeta, one_mul]
  have hcard : ((Finset.univ : Finset (Fin nEvents)).card : K) ≠ 0 := by
    rw [Finset.card_fin]
    exact Nat.cast_ne_zero.mpr (by decide)
  simp only [hit, hsign, if_true, meanOn, Finset.sum_const, nsmul_one]
  rw [div_self hcard, one_mul, Nat.cast_ofNat]

/-- The returns of the positive events are not negative then, and those of the negative ones not
positive. -/
theorem meanOn_of_noiseless (hbeta : 0 < beta) (hnoise : ∀ e, draws.noise e = 0) :
    0 ≤ meanOn (positive draws) (car beta draws) ∧
      meanOn (negative draws) (car beta draws) ≤ 0 := by
  have htenth : (0 : K) < 1 / ((10 : ℕ) : K) := by positivity
  rw [car_of_noiseless hnoise]
  constructor
  · refine meanOn_nonneg fun e he => ?_
    rw [positive, Finset.mem_filter] at he
    exact mul_nonneg hbeta.le (htenth.trans he.2).le
  · refine meanOn_nonpos fun e he => ?_
    rw [negative, Finset.mem_filter] at he
    exact mul_nonpos_of_nonneg_of_nonpos hbeta.le (he.2.trans (neg_neg_of_pos htenth)).le

/-! ### The report -/

/-- A study of the events that were drawn. -/
structure IsStudyOf (beta : K) (draws : Draws K) (r : Study K) : Prop where
  /-- Every event is in exactly one class. -/
  disjoint : Disjoint (positive draws) (negative draws) ∧
    Disjoint (positive draws ∪ negative draws) (neutral draws)
  cover : positive draws ∪ negative draws ∪ neutral draws = Finset.univ
  counts : r.nPositive = (positive draws).card ∧ r.nNegative = (negative draws).card ∧
    r.nNeutral = (neutral draws).card ∧ r.nEvents = nEvents ∧
    r.nPositive + r.nNegative + r.nNeutral = r.nEvents
  lengths : r.window.length = days ∧ r.caarPositive.length = days ∧
    r.caarNegative.length = days ∧ r.caarNeutral.length = days
  /-- The curves add up to the one of all events. -/
  curves : ∀ day < days, ∃ p n u, r.caarPositive[day]? = some p ∧ r.caarNegative[day]? = some n ∧
    r.caarNeutral[day]? = some u ∧
    |(r.nPositive * p + r.nNegative * n + r.nNeutral * u) / (r.nEvents : K) -
      meanOn Finset.univ (path beta draws day) * ((100 : ℕ) : K)| ≤ 1 / 2000
  ic_mem : ∀ ic ∈ r.signal.ic, -1 ≤ ic ∧ ic ≤ 1
  ic_eq_none_iff : r.signal.ic = none ↔
    (∀ e e', sentiments draws e = sentiments draws e') ∨
      ∀ e e', car beta draws e = car beta draws e'
  hitRate_mem : 0 ≤ r.signal.hitRate ∧ r.signal.hitRate ≤ 100
  longShort : 1 < r.nPositive → 1 < r.nNegative →
    |r.signal.longShort - (r.signal.postReturnPos - r.signal.postReturnNeg)| ≤ 3 / 200
  /-- A class of at most one event has no variance to compare with. -/
  oneSided : r.nPositive ≤ 1 ∨ r.nNegative ≤ 1 → r.signal.longShort = 0 ∧ r.signal.tStat = 0
  tStat_sign : (0 < r.signal.longShort → 0 ≤ r.signal.tStat) ∧
    (r.signal.longShort < 0 → r.signal.tStat ≤ 0)
  /-- The scatter shows 120 events, from the lowest sentiment to the highest. -/
  scatter : ∃ sample : Fin 120 → Fin nEvents, Function.Injective sample ∧
    r.scatter = List.ofFn (fun i => (roundTo 3 (sentiments draws (sample i)),
      roundTo 3 (car beta draws (sample i) * ((100 : ℕ) : K)))) ∧
    (r.scatter.map Prod.fst).Pairwise (· ≤ ·) ∧
    ∀ e, sentiments draws (sample 0) ≤ sentiments draws e ∧
      sentiments draws e ≤ sentiments draws (sample 119)
  /-- Without noise the sentiment predicts the return. -/
  noiseless : 0 < beta → (∀ e, draws.noise e = 0) → r.signal.hitRate = 100 ∧
    (∀ ic ∈ r.signal.ic, ic = 1) ∧ 0 ≤ r.signal.longShort ∧ 0 ≤ r.signal.tStat ∧
    0 ≤ r.signal.postReturnPos ∧ r.signal.postReturnNeg ≤ 0

/-- The events of the scatter are different ones in the order of their sentiments. -/
theorem exists_sample {argsort : (Fin nEvents → K) → Fin nEvents → Fin nEvents}
    (hargsort : IsArgsort argsort) :
    ∃ sample : Fin 120 → Fin nEvents, Function.Injective sample ∧
      scatter beta draws argsort = List.ofFn (fun i => (roundTo 3 (sentiments draws (sample i)),
        roundTo 3 (car beta draws (sample i) * ((100 : ℕ) : K)))) ∧
      ((scatter beta draws argsort).map Prod.fst).Pairwise (· ≤ ·) ∧
      ∀ e, sentiments draws (sample 0) ≤ sentiments draws e ∧
        sentiments draws e ≤ sentiments draws (sample 119) := by
  have hmono := hargsort.monotone (sentiments draws)
  refine ⟨fun i => argsort (sentiments draws) (sampleIndex i),
    (hargsort.bijective _).1.comp strictMono_sampleIndex.injective, rfl, ?_, fun e => ?_⟩
  · rw [scatter, List.map_ofFn, List.pairwise_ofFn]
    exact fun i j hij => roundTo_mono 3 (hmono (strictMono_sampleIndex hij).le)
  · -- the first index and the last one are sampled
    obtain ⟨k, rfl⟩ := (hargsort.bijective (sentiments draws)).2 e
    have hfirst : sampleIndex 0 ≤ k := by
      rw [Fin.le_def]
      exact Nat.zero_le k
    have hlast : k ≤ sampleIndex 119 := by
      rw [Fin.le_def]
      exact Nat.le_of_lt_succ k.isLt
    exact ⟨hmono hfirst, hmono hlast⟩

/-- The study is consistent whatever is drawn. -/
theorem eventStudy_spec {sqrt : K → K} (hsqrt : IsSqrt sqrt)
    {argsort : (Fin nEvents → K) → Fin nEvents → Fin nEvents} (hargsort : IsArgsort argsort)
    (beta : K) (draws : Draws K) :
    IsStudyOf beta draws (eventStudy beta draws sqrt argsort) where
  disjoint := ⟨disjoint_positive_negative, disjoint_compl_right⟩
  cover := Finset.union_compl _
  counts := ⟨rfl, rfl, rfl, rfl, card_classes⟩
  lengths := ⟨by simp [eventStudy, window], length_caar _, length_caar _, length_caar _⟩
  curves := fun day hday => exists_curves hday
  ic_mem := by
    intro ic hic
    obtain ⟨r, hr, rfl⟩ := Option.map_eq_some_iff.mp hic
    obtain ⟨hlo, hhi⟩ := correlation_mem hsqrt hr
    have hround : ((-1 : ℤ) : K) ≤ roundTo 3 r ∧ roundTo 3 r ≤ ((1 : ℤ) : K) :=
      ⟨le_roundTo (by push_cast; exact hlo), roundTo_le (by push_cast; exact hhi)⟩
    push_cast at hround
    exact hround
  ic_eq_none_iff := by
    have hcard : 1 < Fintype.card (Fin nEvents) := by
      rw [Fintype.card_fin]
      decide
    rw [← variance_eq_zero_iff hcard, ← variance_eq_zero_iff hcard,
      ← correlation_eq_none_iff, eventStudy, Option.map_eq_none_iff]
  hitRate_mem := by
    obtain ⟨hlo, hhi⟩ := hit_mem beta draws
    have hround : roundTo 1 (hit beta draws) ≤ ((100 : ℤ) : K) :=
      roundTo_le (by push_cast; exact hhi)
    push_cast at hround
    exact ⟨roundTo_nonneg hlo, hround⟩
  longShort := fun hpos hneg => abs_spread_sub_le hpos hneg
  oneSided := fun hfew => by
    have hzero := roundTo_intCast (K := K) 2 0
    rw [Int.cast_zero] at hzero
    rw [eventStudy, spread_of_few hfew]
    exact ⟨hzero, hzero⟩
  tStat_sign := by
    obtain ⟨hnonneg, hnonpos⟩ := spread_sign beta draws sqrt
    refine ⟨fun h => roundTo_nonneg (hnonneg ?_), fun h => roundTo_nonpos (hnonpos ?_)⟩
    · exact le_of_not_gt fun hlt => absurd (roundTo_nonpos hlt.le) h.not_ge
    · exact le_of_not_gt fun hlt => absurd (roundTo_nonneg hlt.le) h.not_ge
  scatter := exists_sample hargsort
  noiseless := by
    intro hbeta hnoise
    -- the returns have the sign of the sentiments, so the spread is not negative
    obtain ⟨hpos, hneg⟩ := meanOn_of_noiseless hbeta hnoise
    have hhundred : (0 : K) ≤ ((100 : ℕ) : K) := Nat.cast_nonneg _
    have hspread : 0 ≤ (spread beta draws sqrt).1 := by
      rw [spread]
      dsimp only
      split_ifs
      · exact mul_nonneg (sub_nonneg.mpr (hneg.trans hpos)) hhundred
      · exact mul_nonneg (sub_nonneg.mpr (hneg.trans hpos)) hhundred
      · exact le_rfl
    have hstatistic := (spread_sign beta draws sqrt).1 hspread
    refine ⟨?_, ?_, roundTo_nonneg hspread, roundTo_nonneg hstatistic, ?_, ?_⟩
    · -- every event is a hit
      have hround := roundTo_intCast (K := K) 1 100
      rw [eventStudy, hit_of_noiseless hbeta hnoise]
      push_cast at hround
      exact hround
    · -- the returns are a positive multiple of the sentiments
      intro ic hic
      obtain ⟨r, hr, rfl⟩ := Option.map_eq_some_iff.mp hic
      rw [car_of_noiseless hnoise] at hr
      have hround := roundTo_intCast (K := K) 3 1
      push_cast at hround
      rw [correlation_const_mul hsqrt hbeta hr, hround]
    · exact (postReturn_sign beta draws _).1 hpos
    · exact (postReturn_sign beta draws _).2 hneg

end Proofs

theorem isArgsort_sort : IsArgsort fun xs : Fin nEvents → ℝ => Tuple.sort xs :=
  ⟨fun xs => (Tuple.sort xs).bijective, fun xs => Tuple.monotone_sort xs⟩

/-- Sentiments from `-1` on in equal steps, and no noise. -/
def evenDraws (K : Type) [Field K] : Draws K where
  sentiment e := ((e : ℕ) : K) / ((120 : ℕ) : K) - 1
  noise _ := 0
  before _ _ := 0
  after _ _ := 0

theorem eventStudy_spec_evenDraws :
    IsStudyOf (35 / 1000) (evenDraws ℝ)
      (eventStudy (35 / 1000) (evenDraws ℝ) Real.sqrt fun xs => Tuple.sort xs) :=
  eventStudy_spec isSqrt_real isArgsort_sort (35 / 1000) (evenDraws ℝ)

end TradingSimulator.EventStudy
