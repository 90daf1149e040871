import TradingSimulator.Library.Drawdown
import TradingSimulator.Library.ExtNum
import TradingSimulator.Library.SampleMoments

/-!
# Series with the IEEE special values

Statistics, windows and lagged changes of series whose entries may be infinite or NaN. What a window
gives is NaN as long as there are too few entries, and when not all of its entries are finite.

On finite entries the statistics are those of the field (`mean_map_fin`, `variance_map_fin`).
-/

namespace ExtNum

open Series SampleMoments

section Values

variable {K : Type*}

def isNan : ExtNum K → Bool
  | .nan => true
  | _ => false

def isFinite : ExtNum K → Bool
  | .fin _ => true
  | _ => false

@[simp]
theorem isNan_fin (q : K) : (fin q).isNan = false := rfl

@[simp]
theorem isNan_nan : (nan : ExtNum K).isNan = true := rfl

@[simp]
theorem isFinite_fin (q : K) : (fin q).isFinite = true := rfl

@[simp]
theorem isFinite_nan : (nan : ExtNum K).isFinite = false := rfl

theorem isFinite_iff {a : ExtNum K} : a.isFinite ↔ ∃ q, a = fin q := by
  cases a <;> simp [isFinite]

variable [Field K] [LinearOrder K]

/-- The absolute value. -/
def abs : ExtNum K → ExtNum K
  | .fin q => .fin (max q (-q))
  | .inf _ => .inf false
  | .nan => .nan

/-- The square root, from the one of the field. -/
def sqrt (root : K → K) : ExtNum K → ExtNum K
  | .fin q => if q < 0 then .nan else .fin (root q)
  | .inf true => .nan
  | .inf false => .inf false
  | .nan => .nan

omit [LinearOrder K] in
@[simp]
theorem isFinite_neg (a : ExtNum K) : (-a).isFinite = a.isFinite := by
  cases a <;> rfl

/-- A quotient of finite values is finite unless it is one by zero. -/
theorem isFinite_fin_div_fin {p q : K} : (fin p / fin q).isFinite ↔ q ≠ 0 := by
  constructor
  · rintro h rfl
    have hdiv : fin p / fin 0 = if p = 0 then nan else inf (decide (p < 0)) := if_pos rfl
    rw [hdiv] at h
    split at h <;> cases h
  · intro hq
    rw [fin_div_fin p hq, isFinite_fin]

omit [Field K] in
/-- The smaller of two, and the first one when they do not compare. -/
def minOf (a b : ExtNum K) : ExtNum K := if b < a then b else a

omit [Field K] in
/-- The larger of two, and the first one when they do not compare. -/
def maxOf (a b : ExtNum K) : ExtNum K := if a < b then b else a

theorem sqrt_fin (root : K → K) {q : K} (hq : 0 ≤ q) : sqrt root (fin q) = fin (root q) :=
  if_neg (not_lt.2 hq)

omit [Field K] in
@[simp]
theorem minOf_fin (p q : K) : minOf (fin p) (fin q) = fin (min p q) := by
  rw [minOf]
  by_cases h : q < p
  · rw [if_pos ((fin_lt_fin q p).2 h), min_eq_right h.le]
  · rw [if_neg (mt (fin_lt_fin q p).1 h), min_eq_left (not_lt.1 h)]

omit [Field K] in
@[simp]
theorem maxOf_fin (p q : K) : maxOf (fin p) (fin q) = fin (max p q) := by
  rw [maxOf]
  by_cases h : p < q
  · rw [if_pos ((fin_lt_fin p q).2 h), max_eq_right h.le]
  · rw [if_neg (mt (fin_lt_fin p q).1 h), max_eq_left (not_lt.1 h)]

omit [Field K] in
/-- A value between two bounds, or a bound: NaN becomes the lower one. -/
theorem exists_clamp_eq_fin {lo hi : K} (hle : lo ≤ hi) (a : ExtNum K) :
    ∃ q, maxOf (fin lo) (minOf a (fin hi)) = fin q ∧ lo ≤ q ∧ q ≤ hi := by
  cases a with
  | fin q =>
    rw [minOf_fin, maxOf_fin]
    exact ⟨_, rfl, le_max_left _ _, max_le hle (min_le_right _ _)⟩
  | inf negative =>
    cases negative with
    | false =>
      -- too large, and cut to the upper bound
      rw [minOf, if_pos ((fin_lt_inf hi false).2 rfl), maxOf_fin, max_eq_right hle]
      exact ⟨hi, rfl, hle, le_rfl⟩
    | true =>
      -- too small, and cut to the lower bound
      rw [minOf, if_neg (by simp), maxOf, if_neg (by simp)]
      exact ⟨lo, rfl, le_rfl, hle⟩
  | nan =>
    -- every comparison with NaN is false, so the second argument is kept
    rw [minOf, if_neg (not_lt_nan _), maxOf, if_neg (not_lt_nan _)]
    exact ⟨lo, rfl, le_rfl, hle⟩

end Values

/-! ### Statistics -/

section Statistics

variable {K : Type*} [Field K] [LinearOrder K]

/-- The arithmetic mean. -/
def mean (xs : List (ExtNum K)) : ExtNum K := xs.sum / (xs.length : ExtNum K)

/-- The variance with the divisor `xs.length - ddof`. -/
def variance (ddof : ℕ) (xs : List (ExtNum K)) : ExtNum K :=
  (xs.map fun x => (x - mean xs) * (x - mean xs)).sum /
    ((xs.length : ExtNum K) - (ddof : ExtNum K))

/-- The standard deviation. -/
def std (root : K → K) (ddof : ℕ) (xs : List (ExtNum K)) : ExtNum K := sqrt root (variance ddof xs)

omit [LinearOrder K] in
theorem sum_map_fin (xs : List K) : (xs.map fin).sum = fin xs.sum := by
  induction xs with
  | nil => rfl
  | cons x xs ih => rw [List.map_cons, List.sum_cons, ih, fin_add_fin, List.sum_cons]

variable [IsStrictOrderedRing K]

theorem mean_map_fin {xs : List K} (hne : xs ≠ []) : mean (xs.map fin) = fin (Series.mean xs) := by
  have hlength : (xs.length : K) ≠ 0 := Nat.cast_ne_zero.2 (List.length_pos_of_ne_nil hne).ne'
  rw [mean, sum_map_fin, List.length_map]
  exact fin_div_fin xs.sum hlength

/-- The variance of enough numbers is finite. -/
theorem variance_map_fin {ddof : ℕ} {xs : List K} (h : ddof < xs.length) :
    variance ddof (xs.map fin) =
      fin ((xs.map fun x => (x - Series.mean xs) ^ 2).sum / ((xs.length : K) - ddof)) := by
  have hne : xs ≠ [] := List.ne_nil_of_length_pos (Nat.zero_lt_of_lt h)
  have hdof : (xs.length : K) - ddof ≠ 0 := (sub_pos.2 (Nat.cast_lt.2 h)).ne'
  have hdev : ((xs.map fin).map fun x => (x - fin (Series.mean xs)) * (x - fin (Series.mean xs))) =
      (xs.map fun x => (x - Series.mean xs) ^ 2).map fin := by
    rw [List.map_map, List.map_map]
    apply List.map_congr_left
    intro x _
    show (fin x - _) * (fin x - _) = fin ((x - _) ^ 2)
    rw [fin_sub_fin, fin_mul_fin, pow_two]
  rw [variance, mean_map_fin hne, hdev, sum_map_fin, List.length_map]
  show fin _ / (fin (xs.length : K) - fin (ddof : K)) = _
  rw [fin_sub_fin, fin_div_fin _ hdof]

/-- The deviation of numbers is a number while there are more of them than `ddof`. -/
theorem std_map_fin (root : K → K) {ddof : ℕ} {xs : List K} (h : ddof < xs.length) :
    std root ddof (xs.map fin) = fin
      (root ((xs.map fun x => (x - Series.mean xs) ^ 2).sum / ((xs.length : K) - ddof))) := by
  have hdof : 0 ≤ (xs.length : K) - ddof := (sub_pos.2 (Nat.cast_lt.2 h)).le
  rw [std, variance_map_fin h, sqrt_fin root (div_nonneg (sum_sq_nonneg xs _) hdof)]

end Statistics

/-! ### Windows -/

section Windows

variable {K : Type*}

/-- The last entry. -/
def last (xs : List (ExtNum K)) : ExtNum K := xs.getLastD nan

/-- A statistic of the `w` entries up to each entry. -/
def rolling (w : ℕ) (stat : List (ExtNum K) → ExtNum K) (xs : List (ExtNum K)) :
    List (ExtNum K) :=
  (List.range xs.length).map fun i =>
    let window := (xs.drop (i + 1 - w)).take w
    if i + 1 < w ∨ ¬ window.all isFinite then nan else stat window

theorem last_concat (xs : List (ExtNum K)) (x : ExtNum K) : last (xs ++ [x]) = x :=
  List.getLastD_concat

theorem last_append {xs ys : List (ExtNum K)} (hne : ys ≠ []) : last (xs ++ ys) = last ys := by
  obtain ⟨ys, y, rfl⟩ := List.eq_nil_or_concat' ys |>.resolve_left hne
  rw [← List.append_assoc, last_concat, last_concat]

/-- The last entry of an elementwise operation. -/
theorem last_zipWith (op : ExtNum K → ExtNum K → ExtNum K) {xs ys : List (ExtNum K)}
    (hlength : xs.length = ys.length) (hne : ys ≠ []) :
    last (List.zipWith op xs ys) = op (last xs) (last ys) := by
  have hxs : xs ≠ [] := by
    rintro rfl
    exact hne (List.length_eq_zero_iff.1 hlength.symm)
  obtain ⟨xs, x, rfl⟩ := List.eq_nil_or_concat' xs |>.resolve_left hxs
  obtain ⟨ys, y, rfl⟩ := List.eq_nil_or_concat' ys |>.resolve_left hne
  rw [List.length_append, List.length_append, List.length_singleton, List.length_singleton,
    Nat.add_right_cancel_iff] at hlength
  rw [List.zipWith_append hlength, List.zipWith_cons_cons, List.zipWith_nil_left, last_concat,
    last_concat, last_concat]

@[simp]
theorem length_rolling (w : ℕ) (stat : List (ExtNum K) → ExtNum K) (xs : List (ExtNum K)) :
    (rolling w stat xs).length = xs.length := by
  simp [rolling]

/-- The last window holds the last entries. -/
theorem last_rolling {w : ℕ} (hw : 0 < w) (stat : List (ExtNum K) → ExtNum K)
    {xs : List (ExtNum K)} (hle : w ≤ xs.length) :
    last (rolling w stat xs) =
      if (xs.drop (xs.length - w)).all isFinite then stat (xs.drop (xs.length - w)) else nan := by
  obtain ⟨n, hn⟩ : ∃ n, xs.length = n + 1 := Nat.exists_eq_succ_of_ne_zero (by omega)
  have hwindow : (xs.drop (n + 1 - w)).take w = xs.drop (xs.length - w) := by
    rw [hn]
    exact List.take_of_length_le (by rw [List.length_drop]; omega)
  rw [rolling, hn, List.range_succ, List.map_append, List.map_singleton, last_concat]
  dsimp only
  rw [hwindow, ← hn]
  by_cases hall : (xs.drop (xs.length - w)).all isFinite = true
  · rw [if_neg (not_or.2 ⟨by omega, not_not.2 hall⟩), if_pos hall]
  · rw [if_pos (Or.inr hall), if_neg hall]

/-- A window of finite entries. -/
theorem last_rolling_map_fin {w : ℕ} (hw : 0 < w) (stat : List (ExtNum K) → ExtNum K) {xs : List K}
    (hle : w ≤ xs.length) :
    last (rolling w stat (xs.map fin)) = stat ((xs.drop (xs.length - w)).map fin) := by
  have hall : ((xs.drop (xs.length - w)).map fin).all isFinite := by
    rw [List.all_eq_true, List.forall_mem_map]
    exact fun _ _ => rfl
  rw [last_rolling hw stat (by rw [List.length_map]; exact hle), List.length_map, ← List.map_drop,
    if_pos hall]

theorem exists_last_map_fin {xs : List K} (hne : xs ≠ []) :
    ∃ x ∈ xs, last (xs.map fin) = fin x := by
  obtain ⟨xs, x, rfl⟩ := List.eq_nil_or_concat' xs |>.resolve_left hne
  exact ⟨x, by simp, by rw [List.map_append, List.map_singleton, last_concat]⟩

end Windows

/-! ### Changes and extremes -/

section Changes

variable {K : Type*} [Field K] [LinearOrder K]

/-- The relative change from the entry `periods` before. -/
def pctChange (periods : ℕ) (xs : List (ExtNum K)) : List (ExtNum K) :=
  List.replicate (min periods xs.length) nan ++
    List.zipWith (fun now past => now / past - fin 1) (xs.drop periods) xs

/-- The highest entry so far. -/
def cummax (xs : List (ExtNum K)) : List (ExtNum K) :=
  scan (fun best x => if best.isNan ∨ best < x then x else best) nan xs

/-- The least entry that is not NaN. -/
def nanMin (xs : List (ExtNum K)) : ExtNum K :=
  xs.foldl (fun best x => if best.isNan ∨ x < best then x else best) nan

/-- Changes from values that are not zero are finite. -/
theorem pctChange_map_fin (periods : ℕ) {xs : List K} (h : ∀ x ∈ xs, x ≠ 0) :
    pctChange periods (xs.map fin) =
      List.replicate (min periods xs.length) nan ++
        (List.zipWith (fun now past => now / past - 1) (xs.drop periods) xs).map fin := by
  rw [pctChange, List.length_map, ← List.map_drop, List.zipWith_map, List.map_zipWith]
  congr 1
  generalize xs.drop periods = ys
  induction xs generalizing ys with
  | nil => cases ys <;> rfl
  | cons x xs ih =>
    obtain ⟨hx, hxs⟩ := List.forall_mem_cons.1 h
    cases ys with
    | nil => rfl
    | cons y ys =>
      rw [List.zipWith_cons_cons, List.zipWith_cons_cons, fin_div_fin y hx, fin_sub_fin, ih hxs]

/-- A series that is not longer than the lag has no change. -/
theorem last_pctChange_of_le {periods : ℕ} {xs : List (ExtNum K)} (hle : xs.length ≤ periods) :
    last (pctChange periods xs) = nan := by
  rw [pctChange, List.drop_eq_nil_of_le hle, List.zipWith_nil_left, List.append_nil]
  cases min periods xs.length with
  | zero => rfl
  | succ n => rw [List.replicate_succ', last_concat]

omit [Field K] [LinearOrder K] in
/-- No finite entry is dropped as NaN. -/
theorem filter_not_isNan_map_fin (xs : List K) :
    (xs.map fin).filter (fun x => !x.isNan) = xs.map fin := by
  rw [List.filter_eq_self, List.forall_mem_map]
  exact fun _ _ => rfl

/-- Running products of finite values. -/
theorem scan_mul_map_fin (start : K) (xs : List K) :
    scan (fun a b => a * b) (fin start) (xs.map fin) =
      (scan (fun a b => a * b) start xs).map fin := by
  induction xs generalizing start with
  | nil => rfl
  | cons x xs ih => rw [List.map_cons, scan_cons, scan_cons, fin_mul_fin, ih, List.map_cons]

omit [Field K] in
/-- Without NaN the running maximum is that of the numbers. -/
theorem cummax_map_fin (xs : List K) : cummax (xs.map fin) = (Drawdown.runningMax xs).map fin := by
  have hstep : ∀ best x : K, (if (fin best).isNan ∨ fin best < fin x then fin x else fin best) =
      fin (max best x) := by
    intro best x
    rw [← maxOf_fin, maxOf]
    simp
  -- behind the first entry the maximum is a number, whatever it starts from
  have hrest : ∀ (rest : List K) (best : K),
      scan (fun best x => if best.isNan ∨ best < x then x else best) (fin best) (rest.map fin) =
        (rest.scanl max best).tail.map fin := by
    intro rest
    induction rest with
    | nil => exact fun _ => rfl
    | cons x rest ih =>
      intro best
      rw [List.map_cons, scan_cons, hstep, ih, List.scanl_cons, List.tail_cons]
      cases rest <;> simp
  cases xs with
  | nil => rfl
  | cons x xs =>
    rw [cummax, List.map_cons, scan_cons, if_pos (Or.inl isNan_nan), hrest, Drawdown.runningMax]
    cases xs <;> simp

/-- The falls of positive values from their running maxima. -/
theorem falls_map_fin {xs : List K} (hpos : ∀ x ∈ xs, 0 < x) :
    List.zipWith (fun x peak => (x - peak) / peak) (xs.map fin) (cummax (xs.map fin)) =
      (List.zipWith (fun x peak => (x - peak) / peak) xs (Drawdown.runningMax xs)).map fin := by
  have hpeaks : ∀ peak ∈ Drawdown.runningMax xs, peak ≠ 0 :=
    fun peak hpeak => (hpos peak (Drawdown.mem_of_mem_runningMax hpeak)).ne'
  rw [cummax_map_fin, List.zipWith_map, List.map_zipWith]
  -- the induction does not see that the peaks are those of the list
  generalize Drawdown.runningMax xs = peaks at hpeaks
  clear hpos
  induction xs generalizing peaks with
  | nil => rfl
  | cons x xs ih =>
    cases peaks with
    | nil => rfl
    | cons peak peaks =>
      rw [List.forall_mem_cons] at hpeaks
      rw [List.zipWith_cons_cons, List.zipWith_cons_cons, fin_sub_fin, fin_div_fin _ hpeaks.1,
        ih peaks hpeaks.2]

omit [Field K] in
/-- Without NaN the least entry is that of the numbers. -/
theorem nanMin_map_fin {xs : List K} {least : K} (h : xs.min? = some least) :
    nanMin (xs.map fin) = fin least := by
  have hstep : ∀ best x : K, (if (fin best).isNan ∨ fin x < fin best then fin x else fin best) =
      fin (min best x) := by
    intro best x
    rw [← minOf_fin, minOf]
    simp
  have hrest : ∀ (rest : List K) (best : K),
      (rest.map fin).foldl (fun best x => if best.isNan ∨ x < best then x else best) (fin best) =
        fin (rest.foldl min best) := by
    intro rest
    induction rest with
    | nil => exact fun _ => rfl
    | cons x rest ih =>
      intro best
      rw [List.map_cons, List.foldl_cons, hstep, ih, List.foldl_cons]
  cases xs with
  | nil => cases h
  | cons x xs =>
    rw [List.min?_cons', Option.some.injEq] at h
    rw [nanMin, List.map_cons, List.foldl_cons, if_pos (Or.inl isNan_nan), hrest, h]

end Changes

end ExtNum
