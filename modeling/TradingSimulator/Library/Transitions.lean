import Mathlib.Algebra.BigOperators.Field
import Mathlib.Algebra.BigOperators.Ring.Finset
import Mathlib.Algebra.Order.BigOperators.Group.Finset
import Mathlib.Data.Fintype.BigOperators
import Mathlib.Tactic.Ring

/-!
# Transitions of a sequence

The steps of a sequence are the pairs of an entry and the next one. Their counts, divided by the row
sums, are the empirical transition matrix of the sequence. The rows of the entries that are left sum
to one (`sum_matrix`), and the matrix carries the counts of the entries that are left over to the
counts of the entries that are reached (`sum_mul_matrix`): up to the two ends of the sequence its
frequencies are stationary (`sum_count_mul_matrix`).
-/

namespace Transitions

variable {α : Type*}

/-- The entries with the next ones. -/
def steps (xs : List α) : List (α × α) := xs.dropLast.zip xs.tail

theorem map_fst_steps (xs : List α) : (steps xs).map Prod.fst = xs.dropLast :=
  List.map_fst_zip (by simp)

theorem map_snd_steps (xs : List α) : (steps xs).map Prod.snd = xs.tail :=
  List.map_snd_zip (by simp)

variable [DecidableEq α] [Fintype α]

/-- Every pair is counted under its second entry. -/
theorem sum_count_left (ps : List (α × α)) (a : α) :
    ∑ b, ps.count (a, b) = (ps.map Prod.fst).count a := by
  induction ps with
  | nil => simp
  | cons p ps ih =>
    simp only [List.count_cons, Finset.sum_add_distrib, ih, List.map_cons]
    by_cases ha : p.1 = a <;> simp [Prod.ext_iff, ha]

/-- Every pair is counted under its first entry. -/
theorem sum_count_right (ps : List (α × α)) (b : α) :
    ∑ a, ps.count (a, b) = (ps.map Prod.snd).count b := by
  induction ps with
  | nil => simp
  | cons p ps ih =>
    simp only [List.count_cons, Finset.sum_add_distrib, ih, List.map_cons]
    by_cases hb : p.2 = b <;> simp [Prod.ext_iff, hb]

variable {K : Type*} [Field K]

/-- The empirical transition matrix. A row that is never left is zero. -/
def matrix (K : Type*) [Field K] (xs : List α) (a b : α) : K :=
  let total := ∑ b, (steps xs).count (a, b)
  if total = 0 then 0 else ((steps xs).count (a, b) : K) / (total : K)

variable [CharZero K]

/-- A row sums to one when its entry is left. -/
theorem sum_matrix (xs : List α) (a : α) :
    ∑ b, matrix K xs a b = if a ∈ xs.dropLast then 1 else 0 := by
  have htotal := sum_count_left (steps xs) a
  rw [map_fst_steps] at htotal
  simp only [matrix, htotal, List.count_eq_zero]
  by_cases ha : a ∈ xs.dropLast
  · have hne : (xs.dropLast.count a : K) ≠ 0 :=
      Nat.cast_ne_zero.mpr (List.count_pos_iff.mpr ha).ne'
    simp only [ha, not_true_eq_false, ↓reduceIte]
    rw [← Finset.sum_div, ← Nat.cast_sum, htotal, div_self hne]
  · simp [ha]

/-- A row times the count of its entry is the row of counts. -/
theorem count_mul_matrix (xs : List α) (a b : α) :
    (xs.dropLast.count a : K) * matrix K xs a b = (steps xs).count (a, b) := by
  have htotal := sum_count_left (steps xs) a
  rw [map_fst_steps] at htotal
  simp only [matrix, htotal]
  split_ifs with hzero
  · -- a pair whose first entry does not occur does not occur either
    rw [hzero, eq_comm, mul_zero, Nat.cast_eq_zero, ← Nat.le_zero, ← hzero, ← htotal]
    exact Finset.single_le_sum (f := fun b => (steps xs).count (a, b)) (fun _ _ => Nat.zero_le _)
      (Finset.mem_univ b)
  · rw [mul_div_cancel₀]
    exact Nat.cast_ne_zero.mpr hzero

/-- The matrix carries the counts of the entries that are left over to those that are reached. -/
theorem sum_mul_matrix (xs : List α) (b : α) :
    ∑ a, (xs.dropLast.count a : K) * matrix K xs a b = xs.tail.count b := by
  simp only [count_mul_matrix]
  rw [← Nat.cast_sum, sum_count_right, map_snd_steps]

/-- The counts of a sequence are stationary, up to its last and its first entry. -/
theorem sum_count_mul_matrix {xs : List α} {first last : α} (hfirst : xs.head? = some first)
    (hlast : xs.getLast? = some last) (b : α) :
    ∑ a, ((xs.count a : K) - if last = a then 1 else 0) * matrix K xs a b =
      (xs.count b : K) - if first = b then 1 else 0 := by
  have hleft : ∀ a, (xs.count a : K) - (if last = a then 1 else 0) = xs.dropLast.count a := by
    intro a
    have hsplit : xs = xs.dropLast ++ [last] := (List.dropLast_append_getLast? last hlast).symm
    conv_lhs => rw [hsplit]
    rw [List.count_append, List.count_singleton]
    by_cases ha : last = a <;> simp [ha]
  have hright : (xs.count b : K) - (if first = b then 1 else 0) = xs.tail.count b := by
    have hsplit : xs = first :: xs.tail := (List.cons_head?_tail hfirst).symm
    conv_lhs => rw [hsplit]
    rw [List.count_cons]
    by_cases hb : first = b <;> simp [hb]
  simp only [hleft, hright, sum_mul_matrix]

end Transitions
