import Mathlib.Algebra.Order.Field.Basic
import Mathlib.Data.List.Induction
import Mathlib.Order.Bounds.Basic

/-!
# Falls of a curve

How far a curve of positive values falls is the least ratio of a value to an earlier one, over all
pairs of times. A program that goes through the values once keeps the highest value so far and
compares with it alone. That is the same, one value at a time (`isLeast_growths_concat`), and so it
is for the array of all running maxima (`exists_isLeast_growths`).
-/

namespace Drawdown

section Definitions

variable {K : Type*}

/-- The ratios of a value of the curve to an earlier value of it, or to itself. -/
def growths [Div K] (curve : List K) : Set K :=
  {ratio | ∃ i j : ℕ, i ≤ j ∧ ∃ past ∈ curve[i]?, ∃ now ∈ curve[j]?, ratio = now / past}

/-- The relative changes from an earlier value to a later one, or to itself. -/
def changes [Field K] (curve : List K) : Set K :=
  {change | ∃ i j : ℕ, i ≤ j ∧ ∃ past ∈ curve[i]?, ∃ now ∈ curve[j]?, change = now / past - 1}

/-- The relative falls from an earlier value to a later one, or to itself. -/
def falls [Field K] (curve : List K) : Set K :=
  {fall | ∃ i j : ℕ, i ≤ j ∧ ∃ past ∈ curve[i]?, ∃ now ∈ curve[j]?, fall = (past - now) / past}

/-- The highest value so far at every time. -/
def runningMax [Max K] : List K → List K
  | [] => []
  | first :: rest => rest.scanl max first

end Definitions

/-! ### Running maxima -/

section RunningMax

variable {K : Type*} [LinearOrder K]

/-- A value with no value of the list below it. -/
theorem min?_eq_some_iff_isLeast {xs : List K} {a : K} :
    xs.min? = some a ↔ IsLeast {x | x ∈ xs} a :=
  List.min?_eq_some_iff

/-- A monotone function takes the least entry to the least one. -/
theorem min?_map {α : Type*} [LinearOrder α] {f : K → α} (hf : Monotone f) {xs : List K} {a : K}
    (h : xs.min? = some a) : (xs.map f).min? = some (f a) := by
  have himage : {y | y ∈ xs.map f} = f '' {x | x ∈ xs} := by
    ext y
    exact List.mem_map
  rw [min?_eq_some_iff_isLeast, himage]
  exact hf.map_isLeast (min?_eq_some_iff_isLeast.mp h)

@[simp]
theorem length_runningMax (curve : List K) : (runningMax curve).length = curve.length := by
  cases curve <;> simp [runningMax]

omit [LinearOrder K] in
theorem setOf_mem_concat (xs : List K) (x : K) :
    {y | y ∈ xs ++ [x]} = {y | y ∈ xs} ∪ {x} := by
  ext y
  simp [or_comm]

/-- One more value raises the maximum when it is above all others. -/
theorem isGreatest_concat {curve : List K} {peak : K} (hpeak : IsGreatest {x | x ∈ curve} peak)
    (x : K) : IsGreatest {y | y ∈ curve ++ [x]} (max peak x) := by
  rw [setOf_mem_concat]
  exact hpeak.union isGreatest_singleton

/-- The running maximum at one more time. -/
theorem runningMax_concat {curve : List K} {peak : K} (hpeak : IsGreatest {x | x ∈ curve} peak)
    (x : K) : runningMax (curve ++ [x]) = runningMax curve ++ [max peak x] := by
  have hmax : curve.max? = some peak := List.max?_eq_some_iff.mpr hpeak
  cases curve with
  | nil => simp at hmax
  | cons first rest =>
    rw [List.max?_cons', Option.some.injEq] at hmax
    simp only [List.cons_append, runningMax, List.scanl_append, hmax, List.scanl_cons,
      List.scanl_nil, List.tail_cons]

/-- Every running maximum is a value of the curve. -/
theorem mem_of_mem_runningMax {curve : List K} {peak : K} (hpeak : peak ∈ runningMax curve) :
    peak ∈ curve := by
  induction curve using List.reverseRecOn with
  | nil => exact hpeak
  | append_singleton curve x ih =>
    rcases eq_or_ne curve [] with rfl | hcurve
    · exact hpeak
    · obtain ⟨top, hmax⟩ := Option.ne_none_iff_exists'.mp (mt List.max?_eq_none_iff.mp hcurve)
      have htop : IsGreatest {y | y ∈ curve} top := List.max?_eq_some_iff.mp hmax
      rw [runningMax_concat htop] at hpeak
      rcases List.mem_append.mp hpeak with hold | hnew
      · exact List.mem_append_left [x] (ih hold)
      · rw [List.mem_singleton.mp hnew]
        exact (isGreatest_concat htop x).1

end RunningMax

/-! ### Pairs of times -/

section Growths

variable {K : Type*} [Field K]

/-- The pairs with one more time are the pairs from before and those that end there. -/
theorem growths_concat (curve : List K) (x : K) :
    growths (curve ++ [x]) = growths curve ∪ (fun past => x / past) '' {y | y ∈ curve ++ [x]} := by
  ext ratio
  constructor
  · rintro ⟨i, j, hij, past, hpast, now, hnow, rfl⟩
    obtain ⟨hj, rfl⟩ := List.getElem?_eq_some_iff.mp hnow
    rw [List.length_append, List.length_singleton] at hj
    rcases Nat.lt_succ_iff_lt_or_eq.mp hj with hlt | rfl
    · -- both times are old
      rw [Option.mem_def, List.getElem?_append_left (by omega)] at hpast
      rw [Option.mem_def, List.getElem?_append_left hlt] at hnow
      exact Or.inl ⟨i, j, hij, past, hpast, _, hnow, rfl⟩
    · refine Or.inr ⟨past, List.mem_of_getElem? hpast, ?_⟩
      simp
  · rintro (⟨i, j, hij, past, hpast, now, hnow, rfl⟩ | ⟨past, hpast, rfl⟩)
    · have hj := (List.getElem?_eq_some_iff.mp hnow).1
      refine ⟨i, j, hij, past, ?_, now, ?_, rfl⟩
      · rwa [Option.mem_def, List.getElem?_append_left (by omega)]
      · rwa [Option.mem_def, List.getElem?_append_left hj]
    · obtain ⟨i, hi, rfl⟩ := List.getElem_of_mem hpast
      rw [List.length_append, List.length_singleton] at hi
      exact ⟨i, curve.length, by omega, _, List.getElem?_eq_getElem _, x, by simp, rfl⟩

/-- The pairs of a curve with one more time at its beginning. -/
theorem growths_cons (x : K) (curve : List K) :
    growths (x :: curve) = (fun now => now / x) '' {y | y ∈ x :: curve} ∪ growths curve := by
  ext ratio
  constructor
  · rintro ⟨i, j, hij, past, hpast, now, hnow, rfl⟩
    cases i with
    | zero =>
      -- a pair that begins at the new time, or behind it
      obtain rfl : x = past := by simpa using hpast
      exact Or.inl ⟨now, List.mem_of_getElem? hnow, rfl⟩
    | succ i =>
      obtain ⟨j, rfl⟩ := Nat.exists_eq_add_of_le' (Nat.one_le_iff_ne_zero.mpr (by omega) : 1 ≤ j)
      exact Or.inr ⟨i, j, by omega, past, by simpa using hpast, now, by simpa using hnow, rfl⟩
  · rintro (⟨now, hnow, rfl⟩ | ⟨i, j, hij, past, hpast, now, hnow, rfl⟩)
    · obtain ⟨j, hj, rfl⟩ := List.getElem_of_mem hnow
      exact ⟨0, j, Nat.zero_le j, x, by simp, _, List.getElem?_eq_getElem hj, rfl⟩
    · exact ⟨i + 1, j + 1, by omega, past, by simpa using hpast, now, by simpa using hnow, rfl⟩

variable [LinearOrder K] [IsStrictOrderedRing K]

/-- Among the ratios to the values so far, that to the highest is the least. -/
theorem isLeast_div_of_isGreatest {values : Set K} {x peak : K} (hx : 0 ≤ x)
    (hpos : ∀ y ∈ values, 0 < y) (hpeak : IsGreatest values peak) :
    IsLeast ((fun past => x / past) '' values) (x / peak) := by
  refine ⟨⟨peak, hpeak.1, rfl⟩, ?_⟩
  rintro _ ⟨past, hpast, rfl⟩
  exact div_le_div_of_nonneg_left hx (hpos past hpast) (hpeak.2 hpast)

/-- At one more time, only the ratio to the highest value so far has to be looked at. -/
theorem isLeast_growths_concat {curve : List K} {x peak least : K}
    (hpos : ∀ y ∈ curve ++ [x], 0 < y) (hpeak : IsGreatest {y | y ∈ curve} peak)
    (hleast : IsLeast (growths curve) least) :
    IsLeast (growths (curve ++ [x])) (min least (x / max peak x)) := by
  have hx : 0 < x := hpos x (by simp)
  rw [growths_concat]
  exact hleast.union (isLeast_div_of_isGreatest hx.le hpos (isGreatest_concat hpeak x))

omit [IsStrictOrderedRing K] in
/-- A single value does not fall. -/
theorem isLeast_growths_singleton {x : K} (hx : x ≠ 0) : IsLeast (growths [x]) 1 := by
  have hgrowths : growths [x] = {1} := by
    have hempty : growths ([] : List K) = ∅ := by
      ext ratio
      simp [growths]
    rw [← List.nil_append [x], growths_concat, hempty]
    ext ratio
    simp [div_self hx, eq_comm]
  rw [hgrowths]
  exact isLeast_singleton

/-- The least ratio over all pairs of times is the least ratio to a running maximum. -/
theorem exists_isLeast_growths {curve : List K} (hne : curve ≠ []) (hpos : ∀ y ∈ curve, 0 < y) :
    ∃ least, IsLeast (growths curve) least ∧
      (List.zipWith (fun now peak => now / peak) curve (runningMax curve)).min? = some least := by
  induction curve using List.reverseRecOn with
  | nil => exact absurd rfl hne
  | append_singleton curve x ih =>
    rcases eq_or_ne curve [] with rfl | hcurve
    · have hx : x ≠ 0 := (hpos x (by simp)).ne'
      exact ⟨1, isLeast_growths_singleton hx, by simp [runningMax, div_self hx]⟩
    · obtain ⟨least, hleast, hmin⟩ := ih hcurve fun y hy => hpos y (by simp [hy])
      -- the pairs that end at the new time are compared through the peak before it
      obtain ⟨peak, hmax⟩ := Option.ne_none_iff_exists'.mp (mt List.max?_eq_none_iff.mp hcurve)
      have hpeak : IsGreatest {y | y ∈ curve} peak := List.max?_eq_some_iff.mp hmax
      refine ⟨_, isLeast_growths_concat hpos hpeak hleast, ?_⟩
      rw [runningMax_concat hpeak, List.zipWith_append (by simp), min?_eq_some_iff_isLeast,
        List.zipWith_cons_cons, List.zipWith_nil_left, setOf_mem_concat]
      exact (min?_eq_some_iff_isLeast.mp hmin).union isLeast_singleton

omit [IsStrictOrderedRing K] in
/-- A curve that starts one time earlier has the same least ratio when some later fall is as deep
as every fall from its start. -/
theorem isLeast_growths_cons_iff {curve : List K} {x least : K}
    (hleast : IsLeast (growths curve) least) :
    IsLeast (growths (x :: curve)) least ↔
      ∃ ratio ∈ growths curve, ∀ now ∈ x :: curve, ratio ≤ now / x := by
  rw [growths_cons]
  constructor
  · intro h
    exact ⟨least, hleast.1, fun now hnow => h.2 (Or.inl ⟨now, hnow, rfl⟩)⟩
  · rintro ⟨ratio, hratio, hle⟩
    refine ⟨Or.inr hleast.1, ?_⟩
    rintro _ (⟨now, hnow, rfl⟩ | hold)
    · exact (hleast.2 hratio).trans (hle now hnow)
    · exact hleast.2 hold

/-! ### Changes and falls -/

omit [LinearOrder K] [IsStrictOrderedRing K] in
/-- A change is a growth less one. -/
theorem changes_eq_image (curve : List K) :
    changes curve = (fun ratio => ratio - 1) '' growths curve := by
  ext change
  constructor
  · rintro ⟨i, j, hij, past, hpast, now, hnow, rfl⟩
    exact ⟨now / past, ⟨i, j, hij, past, hpast, now, hnow, rfl⟩, rfl⟩
  · rintro ⟨_, ⟨i, j, hij, past, hpast, now, hnow, rfl⟩, rfl⟩
    exact ⟨i, j, hij, past, hpast, now, hnow, rfl⟩

/-- The least change belongs to the least ratio. -/
theorem isLeast_changes_iff {curve : List K} {least : K} :
    IsLeast (changes curve) (least - 1) ↔ IsLeast (growths curve) least := by
  rw [changes_eq_image]
  constructor
  · rintro ⟨⟨ratio, hratio, heq⟩, hle⟩
    obtain rfl : ratio = least := sub_left_injective heq
    exact ⟨hratio, fun other hother => (sub_le_sub_iff_right 1).mp (hle ⟨other, hother, rfl⟩)⟩
  · intro h
    exact Monotone.map_isLeast (fun a b hab => sub_le_sub_right hab 1) h

/-- The greatest fall belongs to the least ratio. -/
theorem isGreatest_falls {curve : List K} {least : K} (hpos : ∀ y ∈ curve, 0 < y)
    (h : IsLeast (growths curve) least) : IsGreatest (falls curve) (1 - least) := by
  obtain ⟨⟨i, j, hij, past, hpast, now, hnow, rfl⟩, hle⟩ := h
  have hfall : ∀ past ∈ curve, ∀ now : K, (past - now) / past = 1 - now / past := by
    intro past hmem now
    rw [sub_div, div_self (hpos past hmem).ne']
  refine ⟨⟨i, j, hij, past, hpast, now, hnow, (hfall _ (List.mem_of_getElem? hpast) _).symm⟩, ?_⟩
  rintro _ ⟨i', j', hij', past', hpast', now', hnow', rfl⟩
  rw [hfall _ (List.mem_of_getElem? hpast')]
  exact sub_le_sub_left (hle ⟨i', j', hij', past', hpast', now', hnow', rfl⟩) 1

/-- Positive values have positive ratios. -/
theorem growths_pos {curve : List K} (hpos : ∀ y ∈ curve, 0 < y) :
    ∀ ratio ∈ growths curve, 0 < ratio := by
  rintro _ ⟨i, j, -, past, hpast, now, hnow, rfl⟩
  exact div_pos (hpos now (List.mem_of_getElem? hnow)) (hpos past (List.mem_of_getElem? hpast))

omit [IsStrictOrderedRing K] in
/-- A value does not fall below itself. -/
theorem isLeast_growths_le_one {curve : List K} {least : K} (hne : curve ≠ [])
    (hpos : ∀ y ∈ curve, 0 < y) (h : IsLeast (growths curve) least) : least ≤ 1 := by
  obtain ⟨first, rest, rfl⟩ := List.exists_cons_of_ne_nil hne
  have hfirst : (first : K) ≠ 0 := (hpos first List.mem_cons_self).ne'
  exact h.2 ⟨0, 0, le_rfl, first, rfl, first, rfl, (div_self hfirst).symm⟩

end Growths

end Drawdown
