import TradingSimulator.Library.Series
import Mathlib.Algebra.Order.BigOperators.Group.List
import Mathlib.Algebra.Order.Field.Basic
import Mathlib.Algebra.Order.Ring.Unbundled.Basic
import Mathlib.Analysis.Real.Sqrt
import Mathlib.Tactic.Ring

/-!
# Moments of a sample

The mean of finitely many numbers in an ordered field, and the sums of squared deviations from it.
-/

namespace SampleMoments

open Series

section Bounds

variable {K : Type*} [Field K] [LinearOrder K] [IsStrictOrderedRing K]

/-- A lower bound of the entries is one of their mean. -/
theorem le_mean {lo : K} {xs : List K} (hne : xs ≠ []) (h : ∀ x ∈ xs, lo ≤ x) : lo ≤ mean xs := by
  have hpos : (0 : K) < xs.length := Nat.cast_pos.2 (List.length_pos_of_ne_nil hne)
  have hsum := xs.card_nsmul_le_sum lo h
  rw [nsmul_eq_mul] at hsum
  rw [mean, le_div_iff₀ hpos, mul_comm]
  exact hsum

/-- An upper bound of the entries is one of their mean. -/
theorem mean_le {hi : K} {xs : List K} (hne : xs ≠ []) (h : ∀ x ∈ xs, x ≤ hi) : mean xs ≤ hi := by
  have hpos : (0 : K) < xs.length := Nat.cast_pos.2 (List.length_pos_of_ne_nil hne)
  have hsum := xs.sum_le_card_nsmul hi h
  rw [nsmul_eq_mul] at hsum
  rw [mean, div_le_iff₀ hpos, mul_comm]
  exact hsum

/-- Positive entries have a positive mean. -/
theorem mean_pos {xs : List K} (hne : xs ≠ []) (h : ∀ x ∈ xs, 0 < x) : 0 < mean xs :=
  div_pos (List.sum_pos xs h hne) (Nat.cast_pos.2 (List.length_pos_of_ne_nil hne))

/-- Equal entries have themselves as their mean. -/
theorem mean_of_forall_eq {c : K} {xs : List K} (hne : xs ≠ []) (h : ∀ x ∈ xs, x = c) :
    mean xs = c :=
  le_antisymm (mean_le hne fun x hx => (h x hx).le) (le_mean hne fun x hx => (h x hx).ge)

end Bounds

/-! ### Squared deviations -/

section Deviations

variable {K : Type*} [Field K] [LinearOrder K] [IsStrictOrderedRing K]

/-- The deviations from the mean cancel out. -/
theorem sum_deviations_eq_zero {α : Type*} {xs : List α} (hne : xs ≠ []) (f : α → K) :
    (xs.map fun x => f x - mean (xs.map f)).sum = 0 := by
  have hlength : (xs.length : K) ≠ 0 := Nat.cast_ne_zero.2 (List.length_pos_of_ne_nil hne).ne'
  have hsum : ∀ c : K, (xs.map fun x => f x - c).sum = (xs.map f).sum - xs.length * c := by
    intro c
    clear hne hlength
    induction xs with
    | nil => simp
    | cons x xs ih =>
      rw [List.map_cons, List.sum_cons, ih, List.map_cons, List.sum_cons, List.length_cons,
        Nat.cast_succ]
      ring
  rw [hsum, mean, List.length_map, mul_div_cancel₀ _ hlength, sub_self]

theorem sum_sq_nonneg (xs : List K) (c : K) : 0 ≤ (xs.map fun x => (x - c) ^ 2).sum := by
  apply List.sum_nonneg
  rw [List.forall_mem_map]
  exact fun x _ => sq_nonneg (x - c)

/-- Only equal entries have no deviation. -/
theorem sum_sq_eq_zero_iff {xs : List K} {c : K} :
    (xs.map fun x => (x - c) ^ 2).sum = 0 ↔ ∀ x ∈ xs, x = c := by
  induction xs with
  | nil => simp
  | cons x xs ih =>
    rw [List.map_cons, List.sum_cons, add_eq_zero_iff_of_nonneg (sq_nonneg _) (sum_sq_nonneg xs c),
      ih, List.forall_mem_cons, sq_eq_zero_iff, sub_eq_zero]

/-- The squared deviations from the mean are zero exactly when all entries are equal. -/
theorem sum_sq_mean_eq_zero_iff {xs : List K} :
    (xs.map fun x => (x - mean xs) ^ 2).sum = 0 ↔ ∀ x ∈ xs, ∀ y ∈ xs, x = y := by
  rw [sum_sq_eq_zero_iff]
  constructor
  · exact fun h x hx y hy => (h x hx).trans (h y hy).symm
  · intro h x hx
    exact (mean_of_forall_eq (List.ne_nil_of_mem hx) fun y hy => h y hy x hx).symm

end Deviations

/-! ### Square roots -/

section SquareRoot

variable {K : Type*} [Field K] [LinearOrder K]

/-- A square root on the numbers that are not negative. -/
structure IsSqrt (sqrt : K → K) : Prop where
  nonneg : ∀ x, 0 ≤ sqrt x
  mul_self : ∀ x, 0 ≤ x → sqrt x * sqrt x = x

variable {sqrt : K → K}

theorem IsSqrt.sq_eq (h : IsSqrt sqrt) {x : K} (hx : 0 ≤ x) : sqrt x ^ 2 = x := by
  rw [pow_two, h.mul_self x hx]

theorem IsSqrt.eq_zero_iff (h : IsSqrt sqrt) {x : K} (hx : 0 ≤ x) : sqrt x = 0 ↔ x = 0 := by
  rw [← mul_self_eq_zero, h.mul_self x hx]

theorem IsSqrt.le_iff [IsStrictOrderedRing K] (h : IsSqrt sqrt) {x y : K} (hx : 0 ≤ x)
    (hy : 0 ≤ y) : sqrt x ≤ sqrt y ↔ x ≤ y := by
  rw [← pow_le_pow_iff_left₀ (h.nonneg x) (h.nonneg y) two_ne_zero, h.sq_eq hx, h.sq_eq hy]

/-- The square root of a larger number is not smaller. -/
theorem IsSqrt.mono [IsStrictOrderedRing K] (h : IsSqrt sqrt) {x y : K} (hx : 0 ≤ x)
    (hle : x ≤ y) : sqrt x ≤ sqrt y :=
  (h.le_iff hx (hx.trans hle)).mpr hle

theorem isSqrt_real : IsSqrt Real.sqrt := ⟨Real.sqrt_nonneg, fun _ => Real.mul_self_sqrt⟩

end SquareRoot

end SampleMoments
