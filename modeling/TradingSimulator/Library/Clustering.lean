import Mathlib.Algebra.BigOperators.Group.List.Basic
import Mathlib.Algebra.BigOperators.Ring.List
import Mathlib.Algebra.Order.BigOperators.Group.List
import Mathlib.Algebra.Order.BigOperators.Ring.Finset
import Mathlib.Algebra.Order.Field.Basic
import Mathlib.Data.Fintype.BigOperators
import Mathlib.Tactic.Linarith

/-!
# Clustering

Points in a space of finitely many coordinates and the distances to a list of centres: the square of
the distance to the nearest one is zero exactly at the centres (`least_sqDist_eq_zero_iff`). Weights
that are not negative become probabilities by their sum, unless all of them are zero
(`sum_normalized_eq_one_iff`).
-/

namespace Clustering

section Least

variable {K : Type} [LinearOrder K]

/-- The index of the first element that no other is below. -/
def argmin (l : List K) : ℕ := l.findIdx fun x => l.all fun y => decide (x ≤ y)

theorem argmin_lt {l : List K} (hl : l ≠ []) : argmin l < l.length := by
  obtain ⟨x, hx⟩ := Option.isSome_iff_exists.mp (List.isSome_min?_of_ne_nil hl)
  rw [List.min?_eq_some_iff] at hx
  apply List.findIdx_lt_length_of_exists
  refine ⟨x, hx.1, ?_⟩
  simpa using hx.2

/-- No element is below the one at the index, and every earlier one is above it. -/
theorem argmin_spec {l : List K} (hl : l ≠ []) :
    ∃ x, l[argmin l]? = some x ∧ (∀ y ∈ l, x ≤ y) ∧
      ∀ (i : ℕ) (y : K), i < argmin l → l[i]? = some y → x < y := by
  have hlt := argmin_lt hl
  have hle : ∀ y ∈ l, l[argmin l] ≤ y := by
    have hall : (l.all fun y => decide (l[argmin l] ≤ y)) = true := List.findIdx_getElem (w := hlt)
    simpa using hall
  refine ⟨l[argmin l], List.getElem?_eq_getElem hlt, hle, ?_⟩
  intro i y hi hy
  -- an earlier element is above some element, and so above the least one
  obtain ⟨hil, rfl⟩ := List.getElem?_eq_some_iff.mp hy
  have habove : ¬ (l.all fun y => decide (l[i] ≤ y)) = true := by
    simpa using List.not_of_lt_findIdx hi
  simp only [List.all_eq_true, decide_eq_true_eq, not_forall, not_le] at habove
  obtain ⟨z, hz, hlt'⟩ := habove
  exact (hle z hz).trans_lt hlt'

variable [Zero K]

/-- The least element. -/
def least (l : List K) : K := l.min?.getD 0

theorem least_spec {l : List K} (hl : l ≠ []) : least l ∈ l ∧ ∀ x ∈ l, least l ≤ x := by
  obtain ⟨x, hx⟩ := Option.isSome_iff_exists.mp (List.isSome_min?_of_ne_nil hl)
  rw [least, hx, Option.getD_some]
  exact List.min?_eq_some_iff.mp hx

end Least

section Distances

variable {ι K : Type} [Field K]

/-- The mean of a list of points, by coordinates. -/
def centroid (points : List (ι → K)) : ι → K := fun j =>
  (points.map fun x => x j).sum / points.length

/-- The deviations of a coordinate from the mean cancel out. -/
theorem sum_sub_centroid_eq_zero [CharZero K] (points : List (ι → K)) (j : ι) :
    (points.map fun x => x j - centroid points j).sum = 0 := by
  obtain rfl | hne := eq_or_ne points []
  · rw [List.map_nil, List.sum_nil]
  · have hlength : (points.length : K) ≠ 0 :=
      Nat.cast_ne_zero.mpr (List.length_pos_of_ne_nil hne).ne'
    simp only [sub_eq_add_neg]
    rw [List.sum_map_add, List.map_const', List.sum_replicate, nsmul_eq_mul, mul_neg, centroid,
      mul_div_cancel₀ _ hlength, add_neg_cancel]

variable [Fintype ι]

/-- The square of the distance of two points. -/
def sqDist (x c : ι → K) : K := ∑ j, (x j - c j) ^ 2

/-- The distances of points to `c` exceed those to their mean by that of the mean to `c`, once for
each point. -/
theorem sum_sqDist_eq [CharZero K] (points : List (ι → K)) (c : ι → K) :
    (points.map fun x => sqDist x c).sum =
      (points.map fun x => sqDist x (centroid points)).sum +
        points.length * sqDist (centroid points) c := by
  -- the square of each coordinate is expanded about the mean
  have hpoint : ∀ m x : ι → K,
      sqDist x c = sqDist x m + (∑ j, 2 * (m j - c j) * (x j - m j) + sqDist m c) := by
    intro m x
    simp only [sqDist, ← Finset.sum_add_distrib]
    apply Finset.sum_congr rfl
    intro j _
    ring
  have hcross : (points.map fun x => ∑ j,
      2 * (centroid points j - c j) * (x j - centroid points j)).sum = 0 := by
    apply (Multiset.sum_map_sum (m := (points : Multiset (ι → K)))).trans
    apply Finset.sum_eq_zero
    intro j _
    rw [Multiset.map_coe, Multiset.sum_coe, List.sum_map_mul_left, sum_sub_centroid_eq_zero,
      mul_zero]
  rw [List.map_congr_left fun x _ => hpoint (centroid points) x, List.sum_map_add,
    List.sum_map_add, hcross, zero_add, List.map_const', List.sum_replicate, nsmul_eq_mul]

variable [LinearOrder K] [IsStrictOrderedRing K]

theorem sqDist_nonneg (x c : ι → K) : 0 ≤ sqDist x c :=
  Finset.sum_nonneg fun j _ => sq_nonneg (x j - c j)

/-- Only a point itself has distance zero to it. -/
theorem sqDist_eq_zero_iff {x c : ι → K} : sqDist x c = 0 ↔ x = c := by
  rw [sqDist, Finset.sum_eq_zero_iff_of_nonneg fun j _ => sq_nonneg (x j - c j)]
  constructor
  · intro h
    ext j
    exact sub_eq_zero.mp (pow_eq_zero_iff two_ne_zero |>.mp (h j (Finset.mem_univ j)))
  · rintro rfl j _
    rw [sub_self, zero_pow two_ne_zero]

/-- No point has less distances to some points than their mean. -/
theorem sum_sqDist_centroid_le (points : List (ι → K)) (c : ι → K) :
    (points.map fun x => sqDist x (centroid points)).sum ≤
      (points.map fun x => sqDist x c).sum := by
  rw [sum_sqDist_eq points c]
  apply le_add_of_nonneg_right
  exact mul_nonneg (Nat.cast_nonneg _) (sqDist_nonneg _ _)

variable {centers : List (ι → K)}

/-- The distance to the nearest center is not negative. -/
theorem least_sqDist_nonneg (hcenters : centers ≠ []) (x : ι → K) :
    0 ≤ least (centers.map (sqDist x)) := by
  obtain ⟨hmem, -⟩ := least_spec (l := centers.map (sqDist x)) (by simpa using hcenters)
  obtain ⟨c, -, hc⟩ := List.mem_map.mp hmem
  rw [← hc]
  exact sqDist_nonneg x c

/-- The nearest centre is at distance zero only from a centre. -/
theorem least_sqDist_eq_zero_iff (hcenters : centers ≠ []) {x : ι → K} :
    least (centers.map (sqDist x)) = 0 ↔ x ∈ centers := by
  obtain ⟨hmem, hle⟩ := least_spec (l := centers.map (sqDist x)) (by simpa using hcenters)
  constructor
  · intro h
    obtain ⟨c, hc, hdist⟩ := List.mem_map.mp hmem
    rw [h, sqDist_eq_zero_iff] at hdist
    rwa [hdist]
  · -- a centre is at distance zero from itself
    intro hx
    apply le_antisymm _ (least_sqDist_nonneg hcenters x)
    rw [← sqDist_eq_zero_iff.mpr (rfl : x = x)]
    exact hle _ (List.mem_map_of_mem hx)

end Distances

section Labels

variable {A K : Type} [AddCommMonoid K]

/-- A sum over labelled points is one over the labels and the points of each. -/
theorem sum_map_eq_sum_filter {k : ℕ} {rows : List (A × ℕ)} (hrows : ∀ row ∈ rows, row.2 < k)
    (f : A → ℕ → K) :
    (rows.map fun row => f row.1 row.2).sum = ∑ c ∈ Finset.range k,
      (((rows.filter fun row => row.2 = c).map Prod.fst).map fun x => f x c).sum := by
  induction rows with
  | nil => simp
  | cons row rows ih =>
    rw [List.forall_mem_cons] at hrows
    -- the first point counts at its own label
    have hsplit : ∀ c, ((((row :: rows).filter fun row => row.2 = c).map Prod.fst).map
        fun x => f x c).sum = (if row.2 = c then f row.1 c else 0) +
          (((rows.filter fun row => row.2 = c).map Prod.fst).map fun x => f x c).sum := by
      intro c
      by_cases hc : row.2 = c
      · simp [hc]
      · simp [hc]
    rw [List.map_cons, List.sum_cons, ih hrows.2]
    simp only [hsplit, Finset.sum_add_distrib]
    rw [Finset.sum_ite_eq, if_pos (Finset.mem_range.mpr hrows.1)]

end Labels

section Weights

variable {K : Type} [Field K] [LinearOrder K]

/-- The shares of the weights in their sum, which counts as one where it is zero. -/
def normalized (weights : List K) : List K :=
  weights.map (· / if weights.sum = 0 then 1 else weights.sum)

@[simp]
theorem length_normalized (weights : List K) : (normalized weights).length = weights.length := by
  rw [normalized, List.length_map]

/-- The shares sum to one, but to zero where all there is to share is zero. -/
theorem sum_normalized (weights : List K) :
    (normalized weights).sum = if weights.sum = 0 then 0 else 1 := by
  have hmap : (normalized weights).sum =
      weights.sum * (if weights.sum = 0 then 1 else weights.sum)⁻¹ := by
    simp only [normalized, div_eq_mul_inv]
    rw [List.sum_map_mul_right, List.map_id']
  rw [hmap]
  split_ifs with hsum
  · rw [hsum, zero_mul]
  · exact mul_inv_cancel₀ hsum

/-- A positive share is that of a weight that is not zero. -/
theorem weight_ne_zero_of_share_pos {weights : List K} {i : ℕ} {p : K}
    (hp : (normalized weights)[i]? = some p) (hpos : 0 < p) :
    ∃ w, weights[i]? = some w ∧ w ≠ 0 := by
  rw [normalized, List.getElem?_map, Option.map_eq_some_iff] at hp
  obtain ⟨w, hw, rfl⟩ := hp
  refine ⟨w, hw, ?_⟩
  rintro rfl
  rw [zero_div] at hpos
  exact absurd hpos (lt_irrefl 0)

variable [IsStrictOrderedRing K] {weights : List K}

/-- Weights that are not negative give probabilities. -/
theorem normalized_nonneg (hweights : ∀ w ∈ weights, 0 ≤ w) : ∀ p ∈ normalized weights, 0 ≤ p := by
  intro p hp
  obtain ⟨w, hw, rfl⟩ := List.mem_map.mp hp
  apply div_nonneg (hweights w hw)
  split_ifs
  · exact zero_le_one
  · exact List.sum_nonneg hweights

/-- The shares are probabilities if and only if some weight is not zero. -/
theorem sum_normalized_eq_one_iff (hweights : ∀ w ∈ weights, 0 ≤ w) :
    (normalized weights).sum = 1 ↔ ∃ w ∈ weights, w ≠ 0 := by
  -- weights that are not negative cannot cancel out
  have hzero : weights.sum = 0 ↔ ∀ w ∈ weights, w = 0 := by
    constructor
    · exact fun h w hw => List.all_zero_of_le_zero_le_of_sum_eq_zero hweights h hw
    · exact List.sum_eq_zero
  rw [sum_normalized]
  split_ifs with hsum
  · simpa using hzero.mp hsum
  · have : ∃ w ∈ weights, w ≠ 0 := by
      by_contra hnone
      push Not at hnone
      exact hsum (hzero.mpr hnone)
    exact ⟨fun _ => this, fun _ => rfl⟩

end Weights

end Clustering
