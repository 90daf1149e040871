import TradingSimulator.Library.Series
import Mathlib.Algebra.BigOperators.Ring.List
import Mathlib.Algebra.Order.Field.Basic
import Mathlib.Tactic.FieldSimp
import Mathlib.Tactic.Ring

/-!
# Splitting labelled rows at a threshold

Rows with a key are split into those with a key up to a threshold and those above it. On rows that
are sorted by the key, every such split is a cut (`filter_le_eq_take`), and every cut between two
different keys is a split at any threshold between them (`countP_le_eq_of_between`). The spread of
the labels on a side is measured by the sum of squared errors, which depends on the number of
labels, their sum and the sum of their squares only (`sse_eq`).
-/

namespace ThresholdSplits

open Series

/-! ### Squared errors -/

section SquaredErrors

variable {K : Type*} [Field K]

/-- The sum of the squared errors against the mean. -/
def sse (ys : List K) : K := (ys.map fun y => (y - mean ys) ^ 2).sum

/-- It does not depend on the order of the labels. -/
theorem sse_perm {ys zs : List K} (h : ys.Perm zs) : sse ys = sse zs := by
  have hmean : mean ys = mean zs := by
    rw [mean, mean, h.sum_eq, h.length_eq]
  rw [sse, sse, hmean]
  exact (h.map _).sum_eq

/-- The squared distances from a number, by the sums of the values and of their squares. -/
theorem sum_sub_sq (ys : List K) (c : K) :
    (ys.map fun y => (y - c) ^ 2).sum =
      (ys.map fun y => y * y).sum - 2 * c * ys.sum + ys.length * c ^ 2 := by
  induction ys with
  | nil => simp
  | cons y ys ih =>
    simp only [List.map_cons, List.sum_cons, ih, List.length_cons, Nat.cast_add, Nat.cast_one]
    ring

/-- The sum of squared errors from the sum and the sum of squares. -/
theorem sse_eq [CharZero K] {ys : List K} (hne : ys ≠ []) :
    sse ys = (ys.map fun y => y * y).sum - ys.sum * ys.sum / ys.length := by
  have hlength : (ys.length : K) ≠ 0 := by
    rw [Nat.cast_ne_zero]
    exact (List.length_pos_iff.mpr hne).ne'
  rw [sse, sum_sub_sq, mean]
  field_simp
  ring

end SquaredErrors

/-! ### Sorted rows -/

section Sorted

variable {α K : Type*} [LinearOrder K] {key : α → K}

/-- On sorted rows the split at a threshold is a cut. -/
theorem filter_le_eq_take {rows : List α} (hsorted : rows.Pairwise fun a b => key a ≤ key b)
    (t : K) :
    (rows.filter fun a => key a ≤ t) = rows.take (rows.countP fun a => key a ≤ t) ∧
      (rows.filter fun a => ¬ key a ≤ t) = rows.drop (rows.countP fun a => key a ≤ t) := by
  induction rows with
  | nil => simp
  | cons row rows ih =>
    obtain ⟨hrow, hrows⟩ := List.pairwise_cons.mp hsorted
    obtain ⟨hbelow, habove⟩ := ih hrows
    by_cases h : key row ≤ t
    · simp only [List.filter_cons, List.countP_cons, h, decide_true, not_true_eq_false,
        decide_false, if_true, List.take_succ_cons, List.drop_succ_cons, hbelow, habove]
      simp
    · -- no row behind is below the threshold either
      have hnone : ∀ a ∈ rows, ¬ key a ≤ t := fun a ha hle => h ((hrow a ha).trans hle)
      have hfilter : (rows.filter fun a => key a ≤ t) = [] := by
        simpa [List.filter_eq_nil_iff] using hnone
      have hall : (rows.filter fun a => ¬ key a ≤ t) = rows := by
        simpa [List.filter_eq_self] using hnone
      have hcount : (rows.countP fun a => key a ≤ t) = 0 := by
        rw [List.countP_eq_length_filter, hfilter, List.length_nil]
      simp only [List.filter_cons, List.countP_cons, h, decide_false, hfilter, hcount, hall]
      simp

/-- A threshold between the keys of two consecutive rows cuts between them. -/
theorem countP_le_eq_of_between {rows : List α} (hsorted : rows.Pairwise fun a b => key a ≤ key b)
    {k : ℕ} {a b : α} {t : K} (ha : rows[k]? = some a) (hb : rows[k + 1]? = some b)
    (hle : key a ≤ t) (hlt : t < key b) : (rows.countP fun a => key a ≤ t) = k + 1 := by
  have hk := (List.getElem?_eq_some_iff.mp hb).1
  have hentries := List.pairwise_iff_getElem.mp hsorted
  obtain ⟨hka, rfl⟩ := List.getElem?_eq_some_iff.mp ha
  obtain ⟨hkb, rfl⟩ := List.getElem?_eq_some_iff.mp hb
  -- in a sorted list the rows up to the cut are those with a small key
  have hbelow : ∀ row ∈ rows.take (k + 1), key row ≤ t := by
    intro row hrow
    obtain ⟨i, hi, rfl⟩ := List.getElem_of_mem hrow
    rw [List.length_take] at hi
    rw [List.getElem_take]
    rcases Nat.lt_or_ge i k with hik | hik
    · exact (hentries i k (by omega) hka hik).trans hle
    · obtain rfl : i = k := by omega
      exact hle
  have habove : ∀ row ∈ rows.drop (k + 1), ¬ key row ≤ t := by
    intro row hrow
    obtain ⟨i, hi, rfl⟩ := List.getElem_of_mem hrow
    rw [List.length_drop] at hi
    rw [List.getElem_drop, not_le]
    rcases Nat.eq_zero_or_pos i with rfl | hpos
    · exact hlt
    · exact hlt.trans_le (hentries (k + 1) (k + 1 + i) hkb (by omega) (by omega))
  -- so the count is that of the first part
  rw [← List.take_append_drop (k + 1) rows, List.countP_append,
    List.countP_eq_length.mpr (by simpa using hbelow),
    List.countP_eq_zero.mpr (by simpa using habove), List.length_take]
  omega

/-- A threshold with rows on both sides lies between the keys of two consecutive rows. -/
theorem exists_between_of_countP {rows : List α}
    (hsorted : rows.Pairwise fun a b => key a ≤ key b) {k : ℕ} {t : K}
    (hcount : (rows.countP fun a => key a ≤ t) = k + 1) (hk : k + 1 < rows.length) :
    ∃ a b, rows[k]? = some a ∧ rows[k + 1]? = some b ∧ key a ≤ t ∧ t < key b := by
  obtain ⟨hbelow, habove⟩ := filter_le_eq_take hsorted t
  rw [hcount] at hbelow habove
  have ha : rows[k]? = some rows[k] := List.getElem?_eq_getElem (by omega)
  have hb : rows[k + 1]? = some rows[k + 1] := List.getElem?_eq_getElem hk
  refine ⟨_, _, ha, hb, ?_, ?_⟩
  · have hmem : rows[k] ∈ rows.take (k + 1) :=
      List.mem_of_getElem? (by rw [List.getElem?_take_of_lt (Nat.lt_succ_self k), ha])
    rw [← hbelow] at hmem
    simpa using (List.mem_filter.mp hmem).2
  · have hmem : rows[k + 1] ∈ rows.drop (k + 1) :=
      List.mem_of_getElem? (i := 0) (List.getElem?_drop.trans hb)
    rw [← habove] at hmem
    simpa using (List.mem_filter.mp hmem).2

end Sorted

end ThresholdSplits
