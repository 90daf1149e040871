import TradingSimulator.Library.Smoothing
import Mathlib.Data.Fin.VecNotation
import Mathlib.Data.Matrix.Basic
import Mathlib.Data.Rat.Lemmas
import Mathlib.Algebra.Order.Field.Rat

/-!
# The volatility surface

`build_vol_surface` (`app/quant/vol_surface.py`) shows the implied volatilities after one pass of
`_smooth`, which pads the grid by its edges and blends slices of the padded grid, first along the
rows and then along the columns. In each direction this is the mean of an entry and its neighbours,
so that the surface keeps its level and no value leaves the range of its neighbourhood
(`smooth_spec`).
-/

namespace TradingSimulator.VolSurface

open Smoothing

section Definitions

variable {m n : ℕ} {K : Type} [Field K]

/-- The entry that `np.pad` with `mode="edge"` repeats. -/
def edge (k : Fin (n + 3)) : Fin (n + 1) := ⟨min (k - 1) n, by omega⟩

/-- `np.pad(grid, ((1, 1), (1, 1)), mode="edge")`. -/
def pad (grid : Matrix (Fin (m + 1)) (Fin (n + 1)) K) : Matrix (Fin (m + 3)) (Fin (n + 3)) K :=
  fun i j => grid (edge i) (edge j)

/-- `(pad[:, :-2] + 2 * pad[:, 1:-1] + pad[:, 2:]) / 4.0`. -/
def blendColumns (pad : Matrix (Fin m) (Fin (n + 2)) K) : Matrix (Fin m) (Fin n) K :=
  fun i j => (pad i j.castSucc.castSucc + ((2 : ℕ) : K) * pad i j.succ.castSucc +
    pad i j.succ.succ) / ((4 : ℕ) : K)

/-- `(tmp[:-2, :] + 2 * tmp[1:-1, :] + tmp[2:, :]) / 4.0`. -/
def blendRows (tmp : Matrix (Fin (m + 2)) (Fin n) K) : Matrix (Fin m) (Fin n) K :=
  fun i j => (tmp i.castSucc.castSucc j + ((2 : ℕ) : K) * tmp i.succ.castSucc j +
    tmp i.succ.succ j) / ((4 : ℕ) : K)

/-- `_smooth`. -/
def smooth (grid : Matrix (Fin (m + 1)) (Fin (n + 1)) K) : Matrix (Fin (m + 1)) (Fin (n + 1)) K :=
  blendRows (blendColumns (pad grid))

/-- The part of the 3 by 3 neighbourhood that is in the grid. -/
def neighbourhood (i : Fin (m + 1)) (j : Fin (n + 1)) : Finset (Fin (m + 1) × Fin (n + 1)) :=
  near i ×ˢ near j

theorem neighbourhood_nonempty (i : Fin (m + 1)) (j : Fin (n + 1)) :
    (neighbourhood i j).Nonempty :=
  ⟨(i, j), Finset.mem_product.mpr ⟨self_mem_near i, self_mem_near j⟩⟩

end Definitions

section Edges

variable {n : ℕ}

/-- The first slice of the padded entries are the entries before. -/
theorem edge_castSucc_castSucc (i : Fin (n + 1)) : edge i.castSucc.castSucc = prev i := by
  ext
  simp only [edge, prev, Fin.val_castSucc]
  omega

/-- The middle slice are the entries themselves. -/
theorem edge_succ_castSucc (i : Fin (n + 1)) : edge i.succ.castSucc = i := by
  ext
  simp only [edge, Fin.val_castSucc, Fin.val_succ]
  omega

/-- The last slice are the entries behind. -/
theorem edge_succ_succ (i : Fin (n + 1)) : edge i.succ.succ = next i := by
  ext
  simp only [edge, next, Fin.val_succ]
  omega

end Edges

section Surface

variable {m n : ℕ} {K : Type} [Field K]

/-- The surface is smoothed along its rows, and then along its columns. -/
theorem smooth_eq_smoothed (grid : Matrix (Fin (m + 1)) (Fin (n + 1)) K) (i : Fin (m + 1))
    (j : Fin (n + 1)) : smooth grid i j = smoothed (fun k => smoothed (grid k) j) i := by
  simp only [smooth, blendRows, blendColumns, pad, edge_castSucc_castSucc, edge_succ_castSucc,
    edge_succ_succ, smoothed]

/-- The two directions may be blended in either order. -/
theorem blendRows_blendColumns_comm (padded : Matrix (Fin (m + 2)) (Fin (n + 2)) K) :
    blendRows (blendColumns padded) = blendColumns (blendRows padded) := by
  ext i j
  simp only [blendRows, blendColumns]
  ring

/-- The smoothing preserves the sum over the grid. -/
theorem sum_smooth [CharZero K] (grid : Matrix (Fin (m + 1)) (Fin (n + 1)) K) :
    ∑ i, ∑ j, smooth grid i j = ∑ i, ∑ j, grid i j := by
  simp only [smooth_eq_smoothed]
  -- each direction keeps the sums of its lines
  calc ∑ i, ∑ j, smoothed (fun k => smoothed (grid k) j) i
      = ∑ j, ∑ i, smoothed (fun k => smoothed (grid k) j) i := Finset.sum_comm
    _ = ∑ j, ∑ k, smoothed (grid k) j := by simp only [sum_smoothed]
    _ = ∑ k, ∑ j, smoothed (grid k) j := Finset.sum_comm
    _ = ∑ k, ∑ j, grid k j := by simp only [sum_smoothed]

/-- Smoothing is linear. -/
theorem smooth_add_smul (a b : K) (grid other : Matrix (Fin (m + 1)) (Fin (n + 1)) K) :
    smooth (a • grid + b • other) = a • smooth grid + b • smooth other := by
  ext i j
  show smooth (a • grid + b • other) i j = a * smooth grid i j + b * smooth other i j
  simp only [smooth_eq_smoothed]
  -- linear in the columns, and in each of them in the rows
  rw [← smoothed_add_mul]
  congr 1
  ext k
  exact smoothed_add_mul a b (grid k) (other k) j

variable [LinearOrder K] [IsStrictOrderedRing K]

/-- No value leaves the range of its neighbourhood. -/
theorem smooth_mem_range (grid : Matrix (Fin (m + 1)) (Fin (n + 1)) K) (i : Fin (m + 1))
    (j : Fin (n + 1)) :
    (neighbourhood i j).inf' (neighbourhood_nonempty i j) (fun p => grid p.1 p.2) ≤
        smooth grid i j ∧
      smooth grid i j ≤
        (neighbourhood i j).sup' (neighbourhood_nonempty i j) fun p => grid p.1 p.2 := by
  rw [smooth_eq_smoothed]
  -- a bound of the neighbourhood is one along each row of it, and then of their means
  constructor
  · apply le_smoothed
    intro k hk
    apply le_smoothed
    intro l hl
    exact Finset.inf'_le (fun p : Fin (m + 1) × Fin (n + 1) => grid p.1 p.2)
      (Finset.mk_mem_product hk hl)
  · apply smoothed_le
    intro k hk
    apply smoothed_le
    intro l hl
    exact Finset.le_sup' (fun p : Fin (m + 1) × Fin (n + 1) => grid p.1 p.2)
      (Finset.mk_mem_product hk hl)

/-- Smoothing keeps the sum of the grid, takes no value out of the range of its neighbourhood, is
linear, and does not depend on which direction comes first. -/
theorem smooth_spec (grid : Matrix (Fin (m + 1)) (Fin (n + 1)) K) :
    ∑ i, ∑ j, smooth grid i j = ∑ i, ∑ j, grid i j ∧
      (∀ i j,
        (neighbourhood i j).inf' (neighbourhood_nonempty i j) (fun p => grid p.1 p.2) ≤
            smooth grid i j ∧
          smooth grid i j ≤
            (neighbourhood i j).sup' (neighbourhood_nonempty i j) fun p => grid p.1 p.2) ∧
      (∀ (a b : K) (other : Matrix (Fin (m + 1)) (Fin (n + 1)) K),
        smooth (a • grid + b • other) = a • smooth grid + b • smooth other) ∧
      smooth grid = blendColumns (blendRows (pad grid)) :=
  ⟨sum_smooth grid, smooth_mem_range grid, fun a b other => smooth_add_smul a b grid other,
    blendRows_blendColumns_comm (pad grid)⟩

/-- A single row of three values. -/
theorem smooth_spec_row :
    let grid : Matrix (Fin 1) (Fin 3) ℚ := fun _ => ![1, 5, 3]
    ∑ i, ∑ j, smooth grid i j = ∑ i, ∑ j, grid i j ∧
      (∀ i j,
        (neighbourhood i j).inf' (neighbourhood_nonempty i j) (fun p => grid p.1 p.2) ≤
            smooth grid i j ∧
          smooth grid i j ≤
            (neighbourhood i j).sup' (neighbourhood_nonempty i j) fun p => grid p.1 p.2) ∧
      (∀ (a b : ℚ) (other : Matrix (Fin 1) (Fin 3) ℚ),
        smooth (a • grid + b • other) = a • smooth grid + b • smooth other) ∧
      smooth grid = blendColumns (blendRows (pad grid)) :=
  smooth_spec fun _ => ![1, 5, 3]

end Surface

end TradingSimulator.VolSurface
