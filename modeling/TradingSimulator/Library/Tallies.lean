import TradingSimulator.Library.Runs
import Mathlib.Algebra.BigOperators.Group.List.Basic
import Mathlib.Algebra.Order.Monoid.Defs

/-!
# Tallies

A list of totals, to which amounts are added one after the other, each at its own index. The totals
together grow by all amounts together (`sum_credit`).
-/

namespace Tallies

variable {K : Type} [AddCommMonoid K]

/-- The totals after some amounts, each added to the total at its index. -/
def credit (totals : List K) (amounts : List (ℕ × K)) : List K :=
  amounts.foldl (fun totals entry => totals.modify entry.1 fun total => total + entry.2) totals

@[simp]
theorem credit_nil (totals : List K) : credit totals [] = totals := rfl

theorem credit_cons (totals : List K) (i : ℕ) (amount : K) (rest : List (ℕ × K)) :
    credit totals ((i, amount) :: rest) =
      credit (totals.modify i fun total => total + amount) rest := rfl

theorem credit_append (totals : List K) (first second : List (ℕ × K)) :
    credit totals (first ++ second) = credit (credit totals first) second := by
  rw [credit, List.foldl_append, credit, credit]

/-- Crediting keeps the number of the totals. -/
@[simp]
theorem length_credit (totals : List K) (amounts : List (ℕ × K)) :
    (credit totals amounts).length = totals.length := by
  induction amounts generalizing totals with
  | nil => rfl
  | cons entry amounts ih => rw [credit_cons, ih, List.length_modify]

/-- What is credited to one entry is credited to the sum. -/
theorem sum_modify_add {totals : List K} {i : ℕ} (hi : i < totals.length) (amount : K) :
    (totals.modify i fun total => total + amount).sum = totals.sum + amount := by
  induction totals generalizing i with
  | nil => exact absurd hi (Nat.not_lt_zero i)
  | cons total totals ih =>
    cases i with
    | zero => rw [List.modify_zero_cons, List.sum_cons, List.sum_cons, add_right_comm]
    | succ i =>
      rw [List.modify_succ_cons, List.sum_cons, List.sum_cons, ih (Nat.lt_of_succ_lt_succ hi),
        add_assoc]

/-- The sum of the totals grows by the amounts. -/
theorem sum_credit {totals : List K} {amounts : List (ℕ × K)}
    (h : ∀ entry ∈ amounts, entry.1 < totals.length) :
    (credit totals amounts).sum = totals.sum + (amounts.map Prod.snd).sum := by
  induction amounts generalizing totals with
  | nil => rw [credit_nil, List.map_nil, List.sum_nil, add_zero]
  | cons entry amounts ih =>
    rw [List.forall_mem_cons] at h
    -- an amount does not change the number of the totals
    have hrest : ∀ rest ∈ amounts,
        rest.1 < (totals.modify entry.1 fun total => total + entry.2).length := by
      rw [List.length_modify]
      exact h.2
    rw [credit_cons, ih hrest, sum_modify_add h.1, List.map_cons, List.sum_cons, add_assoc]

variable [PartialOrder K] [IsOrderedAddMonoid K]

/-- Amounts that are not negative keep the totals so. -/
theorem credit_nonneg {totals : List K} (htotals : ∀ total ∈ totals, 0 ≤ total)
    {amounts : List (ℕ × K)} (h : ∀ entry ∈ amounts, 0 ≤ entry.2) :
    ∀ total ∈ credit totals amounts, 0 ≤ total := by
  apply Runs.foldl_invariant (J := fun totals => ∀ total ∈ totals, 0 ≤ total) _ htotals h
  intro totals entry hentry htotals
  -- index by index: the one that is credited, and the others
  rw [List.forall_mem_iff_getElem]
  intro i hi
  rw [List.length_modify] at hi
  have hold : 0 ≤ totals[i] := htotals _ (List.getElem_mem hi)
  rw [List.getElem_modify]
  split_ifs
  · exact add_nonneg hold hentry
  · exact hold

end Tallies
