import Mathlib.Algebra.BigOperators.Field
import Mathlib.Algebra.BigOperators.Fin
import Mathlib.Algebra.Order.Field.Basic
import Mathlib.Tactic.FieldSimp
import Mathlib.Tactic.Linarith
import Mathlib.Tactic.Ring

/-!
# Smoothing

Weighted means of each entry of a finite sequence and its two neighbours, where an entry at an end
is its own neighbour. The weights `1, 2, 1` are symmetric, so that an entry gives away as much as it
gets: the sum stays the same (`sum_smoothed`).
-/

namespace Smoothing

section Neighbours

variable {n : ℕ}

/-- The entry before, and the first one itself at the start. -/
def prev (i : Fin (n + 1)) : Fin (n + 1) := ⟨i - 1, by omega⟩

/-- The entry behind, and the last one itself at the end. -/
def next (i : Fin (n + 1)) : Fin (n + 1) := ⟨min (i + 1) n, by omega⟩

/-- The entries at most one place away. -/
def near (i : Fin (n + 1)) : Finset (Fin (n + 1)) := {k | k.val ≤ i + 1 ∧ i.val ≤ k + 1}

theorem mem_near {i k : Fin (n + 1)} : k ∈ near i ↔ k.val ≤ i + 1 ∧ i.val ≤ k + 1 := by
  rw [near, Finset.mem_filter]
  exact and_iff_right (Finset.mem_univ k)

theorem prev_mem_near (i : Fin (n + 1)) : prev i ∈ near i := by
  rw [mem_near]
  simp only [prev]
  omega

theorem self_mem_near (i : Fin (n + 1)) : i ∈ near i := by
  rw [mem_near]
  omega

theorem next_mem_near (i : Fin (n + 1)) : next i ∈ near i := by
  rw [mem_near]
  simp only [next]
  omega

theorem prev_zero : prev (0 : Fin (n + 1)) = 0 := rfl

theorem prev_succ (i : Fin n) : prev i.succ = i.castSucc := by
  ext
  simp [prev]

theorem next_last : next (Fin.last n) = Fin.last n := by
  ext
  simp [next]

theorem next_castSucc (i : Fin n) : next i.castSucc = i.succ := by
  ext
  simp only [next, Fin.val_castSucc, Fin.val_succ]
  omega

end Neighbours

section Means

variable {n : ℕ} {K : Type*} [Field K]

/-- The mean of an entry and its neighbours, in which the entry counts twice. -/
def smoothed (x : Fin (n + 1) → K) (i : Fin (n + 1)) : K :=
  (x (prev i) + ((2 : ℕ) : K) * x i + x (next i)) / ((4 : ℕ) : K)

/-- The entries before and the entries behind together are all entries twice. -/
theorem sum_prev_add_sum_next (x : Fin (n + 1) → K) :
    ∑ i, x (prev i) + ∑ i, x (next i) = ((2 : ℕ) : K) * ∑ i, x i := by
  -- the first entry is its own predecessor, the last one its own successor
  have hprev : ∑ i, x (prev i) = x 0 + ∑ i : Fin n, x i.castSucc := by
    rw [Fin.sum_univ_succ, prev_zero]
    simp only [prev_succ]
  have hnext : ∑ i, x (next i) = ∑ i : Fin n, x i.succ + x (Fin.last n) := by
    rw [Fin.sum_univ_castSucc, next_last]
    simp only [next_castSucc]
  calc ∑ i, x (prev i) + ∑ i, x (next i)
      = (x 0 + ∑ i : Fin n, x i.succ) + (∑ i : Fin n, x i.castSucc + x (Fin.last n)) := by
        rw [hprev, hnext]
        ring
    _ = ((2 : ℕ) : K) * ∑ i, x i := by
        rw [← Fin.sum_univ_succ, ← Fin.sum_univ_castSucc, Nat.cast_ofNat, two_mul]

/-- Smoothing keeps the sum. -/
theorem sum_smoothed [CharZero K] (x : Fin (n + 1) → K) : ∑ i, smoothed x i = ∑ i, x i := by
  have hfour : ((4 : ℕ) : K) ≠ 0 := Nat.cast_ne_zero.mpr (by decide)
  have hsum : ∑ i, (x (prev i) + ((2 : ℕ) : K) * x i + x (next i)) = ((4 : ℕ) : K) * ∑ i, x i := by
    calc ∑ i, (x (prev i) + ((2 : ℕ) : K) * x i + x (next i))
        = ∑ i, x (prev i) + ∑ i, x (next i) + ((2 : ℕ) : K) * ∑ i, x i := by
          rw [Finset.sum_add_distrib, Finset.sum_add_distrib, Finset.mul_sum]
          ring
      _ = ((4 : ℕ) : K) * ∑ i, x i := by
          rw [sum_prev_add_sum_next]
          push_cast
          ring
  simp only [smoothed]
  rw [← Finset.sum_div, hsum, mul_div_cancel_left₀ _ hfour]

/-- Smoothing is linear. -/
theorem smoothed_add_mul (a b : K) (x y : Fin (n + 1) → K) (i : Fin (n + 1)) :
    smoothed (fun k => a * x k + b * y k) i = a * smoothed x i + b * smoothed y i := by
  simp only [smoothed]
  ring

variable [LinearOrder K] [IsStrictOrderedRing K]

/-- A bound of an entry and its neighbours from below is one of their mean. -/
theorem le_smoothed {x : Fin (n + 1) → K} {i : Fin (n + 1)} {lo : K}
    (h : ∀ k ∈ near i, lo ≤ x k) : lo ≤ smoothed x i := by
  have hprev := h _ (prev_mem_near i)
  have hself := h _ (self_mem_near i)
  have hnext := h _ (next_mem_near i)
  -- four entries, with the middle one twice
  rw [smoothed, le_div_iff₀ (by norm_num)]
  push_cast
  linarith

/-- A bound of an entry and its neighbours from above is one of their mean. -/
theorem smoothed_le {x : Fin (n + 1) → K} {i : Fin (n + 1)} {hi : K}
    (h : ∀ k ∈ near i, x k ≤ hi) : smoothed x i ≤ hi := by
  have hprev := h _ (prev_mem_near i)
  have hself := h _ (self_mem_near i)
  have hnext := h _ (next_mem_near i)
  rw [smoothed, div_le_iff₀ (by norm_num)]
  push_cast
  linarith

end Means

end Smoothing
