import Mathlib.Analysis.Convex.Basic
import Mathlib.Tactic.FieldSimp
import Mathlib.Tactic.Ring

/-!
# Clamping and linear interpolation

Clamped values, the values of a piecewise linear function and its equidistant grids. None of them
leaves the interval of the values it is made from.
-/

namespace Interpolation

/-- The value, moved into the interval. -/
def clip {α : Type*} [LinearOrder α] (x lo hi : α) : α := min (max x lo) hi

theorem clip_mem {α : Type*} [LinearOrder α] {x lo hi : α} (h : lo ≤ hi) :
    clip x lo hi ∈ Set.Icc lo hi :=
  ⟨le_min (le_max_right _ _) h, min_le_right _ _⟩

variable {K : Type*} [Field K] [LinearOrder K]

/-- The value at `x` of the function that is linear between the points, which come in the order of
their first coordinates, and constant on both sides of them. Without points there is none. -/
def interp (x : K) : List (K × K) → Option K
  | [] => none
  | [p] => some p.2
  | p :: q :: rest =>
    if x ≤ p.1 then some p.2
    else if x < q.1 then some ((q.2 - p.2) / (q.1 - p.1) * (x - p.1) + p.2)
    else interp x (q :: rest)

/-- `n + 1` equidistant numbers. -/
def linspace {n : ℕ} (start stop : K) (i : Fin (n + 1)) : K :=
  start + (i : ℕ) * ((stop - start) / (n : ℕ))

variable [IsStrictOrderedRing K]

/-- Between two points the value is between theirs. -/
theorem segment_mem {x a b u v lo hi : K} (hax : a < x) (hxb : x < b) (hu : u ∈ Set.Icc lo hi)
    (hv : v ∈ Set.Icc lo hi) : (v - u) / (b - a) * (x - a) + u ∈ Set.Icc lo hi := by
  have hwidth : 0 < b - a := sub_pos.mpr (hax.trans hxb)
  have hnonneg : 0 ≤ (x - a) / (b - a) := div_nonneg (sub_nonneg.mpr hax.le) hwidth.le
  have hle : (x - a) / (b - a) ≤ 1 := (div_le_one hwidth).mpr (sub_le_sub_right hxb.le a)
  have hmix : (v - u) / (b - a) * (x - a) + u =
      (1 - (x - a) / (b - a)) • u + ((x - a) / (b - a)) • v := by
    simp only [smul_eq_mul]
    field_simp
    ring
  rw [hmix]
  exact convex_Icc lo hi hu hv (sub_nonneg.mpr hle) hnonneg (sub_add_cancel _ _)

/-- Interpolated values stay in the interval of the values they are interpolated from. -/
theorem exists_interp {x lo hi : K} {points : List (K × K)} (hne : points ≠ [])
    (h : ∀ p ∈ points, p.2 ∈ Set.Icc lo hi) :
    ∃ y, interp x points = some y ∧ y ∈ Set.Icc lo hi := by
  induction points with
  | nil => exact absurd rfl hne
  | cons p points ih =>
    rw [List.forall_mem_cons] at h
    rcases points with _ | ⟨q, rest⟩
    · exact ⟨p.2, rfl, h.1⟩
    · rw [interp]
      split_ifs with hleft hbetween
      · exact ⟨p.2, rfl, h.1⟩
      · exact ⟨_, rfl, segment_mem (not_le.mp hleft) hbetween h.1 (h.2 q List.mem_cons_self)⟩
      · exact ih (List.cons_ne_nil _ _) h.2

omit [LinearOrder K] [IsStrictOrderedRing K] in
@[simp] theorem linspace_zero {n : ℕ} (start stop : K) :
    linspace start stop (0 : Fin (n + 1)) = start := by
  simp [linspace]

/-- The points of an interval do not fall. -/
theorem linspace_mono {n : ℕ} {start stop : K} (h : start ≤ stop) :
    Monotone (linspace start stop : Fin (n + 1) → K) := by
  intro i j hij
  have hstep : 0 ≤ (stop - start) / ((n : ℕ) : K) :=
    div_nonneg (sub_nonneg.mpr h) (Nat.cast_nonneg n)
  have hmul := mul_le_mul_of_nonneg_right (Nat.cast_le (α := K).mpr hij) hstep
  exact add_le_add_right hmul start

end Interpolation
