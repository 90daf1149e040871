import Mathlib.Algebra.BigOperators.Group.List.Basic
import Mathlib.Algebra.Order.BigOperators.Group.List
import Mathlib.Algebra.Order.Field.Basic
import Mathlib.Tactic.Linarith
import Mathlib.Tactic.Ring

/-!
# Lots of units

Units bought at different prices, kept lot by lot in the order in which they were bought.

* `takeUnits u lots`: the first `u` units, the lot in which they end being split;
* `dropUnits u lots`: what is left without them.

Together they keep the cost (`cost_takeUnits_add_cost_dropUnits`). Dropping the oldest units is
taking the newest ones from the other end (`reverse_dropUnits`), so what first-in-first-out sales
leave of a history of purchases depends only on how many units are left.
-/

/-- Units bought together at one price. -/
structure Lot (K : Type*) where
  units : K
  unitCost : K

namespace Lot

variable {K : Type*} [Field K]

/-- How many units the lots hold. -/
def totalUnits (lots : List (Lot K)) : K := (lots.map units).sum

/-- What the lots have cost. -/
def totalCost (lots : List (Lot K)) : K := (lots.map fun lot => lot.units * lot.unitCost).sum

@[simp] theorem totalUnits_nil : totalUnits ([] : List (Lot K)) = 0 := rfl

@[simp] theorem totalCost_nil : totalCost ([] : List (Lot K)) = 0 := rfl

@[simp] theorem totalUnits_cons (lot : Lot K) (lots : List (Lot K)) :
    totalUnits (lot :: lots) = lot.units + totalUnits lots := by
  simp [totalUnits]

@[simp] theorem totalCost_cons (lot : Lot K) (lots : List (Lot K)) :
    totalCost (lot :: lots) = lot.units * lot.unitCost + totalCost lots := by
  simp [totalCost]

@[simp] theorem totalUnits_append (lots lots' : List (Lot K)) :
    totalUnits (lots ++ lots') = totalUnits lots + totalUnits lots' := by
  simp [totalUnits]

@[simp] theorem totalCost_append (lots lots' : List (Lot K)) :
    totalCost (lots ++ lots') = totalCost lots + totalCost lots' := by
  simp [totalCost]

@[simp] theorem totalUnits_reverse (lots : List (Lot K)) :
    totalUnits lots.reverse = totalUnits lots := by
  simp [totalUnits, List.map_reverse]

@[simp] theorem totalCost_reverse (lots : List (Lot K)) :
    totalCost lots.reverse = totalCost lots := by
  simp [totalCost, List.map_reverse]

variable [LinearOrder K]

/-- The first `u` units. -/
def takeUnits (u : K) : List (Lot K) → List (Lot K)
  | [] => []
  | lot :: lots =>
    if u ≤ 0 then []
    else if lot.units ≤ u then lot :: takeUnits (u - lot.units) lots
    else [{ lot with units := u }]

/-- What is left without the first `u` units. -/
def dropUnits (u : K) : List (Lot K) → List (Lot K)
  | [] => []
  | lot :: lots =>
    if u ≤ 0 then lot :: lots
    else if lot.units ≤ u then dropUnits (u - lot.units) lots
    else { lot with units := lot.units - u } :: lots

/-- Every lot holds something. -/
def AllPositive (lots : List (Lot K)) : Prop := ∀ lot ∈ lots, 0 < lot.units

/-- Taking and dropping the same units splits the cost. -/
theorem cost_takeUnits_add_cost_dropUnits (u : K) (lots : List (Lot K)) :
    totalCost (takeUnits u lots) + totalCost (dropUnits u lots) = totalCost lots := by
  -- along the lots, with the units that are still to be taken
  induction lots generalizing u with
  | nil => simp [takeUnits, dropUnits]
  | cons lot lots ih =>
    rw [takeUnits, dropUnits]
    split_ifs
    · simp
    · rw [totalCost_cons, totalCost_cons, add_assoc, ih]
    · simp only [totalCost_cons, totalCost_nil]
      ring

theorem AllPositive.tail {lot : Lot K} {lots : List (Lot K)} (h : AllPositive (lot :: lots)) :
    AllPositive lots :=
  fun other hother => h other (List.mem_cons_of_mem _ hother)

variable [IsStrictOrderedRing K] {u v : K} {lots : List (Lot K)}

theorem AllPositive.totalUnits_nonneg (h : AllPositive lots) : 0 ≤ totalUnits lots := by
  refine List.sum_nonneg fun units hunits => ?_
  obtain ⟨lot, hlot, rfl⟩ := List.mem_map.mp hunits
  exact (h lot hlot).le

/-- Lots that hold nothing altogether are no lots. -/
theorem AllPositive.eq_nil (h : AllPositive lots) (hzero : totalUnits lots = 0) : lots = [] := by
  cases lots with
  | nil => rfl
  | cons lot lots =>
    rw [totalUnits_cons] at hzero
    have hfirst := h lot List.mem_cons_self
    have hrest := h.tail.totalUnits_nonneg
    linarith

/-- Dropping units leaves positive lots. -/
theorem AllPositive.dropUnits (h : AllPositive lots) (u : K) :
    AllPositive (dropUnits u lots) := by
  induction lots generalizing u with
  | nil => exact h
  | cons lot lots ih =>
    rw [Lot.dropUnits]
    split_ifs with hnone hwhole
    · exact h
    · exact ih h.tail _
    · rintro other (_ | ⟨_, hother⟩)
      · exact sub_pos.mpr (not_le.mp hwhole)
      · exact h.tail other hother

/-- Dropping units that are there leaves that many fewer. -/
theorem totalUnits_dropUnits (hu : 0 ≤ u) (hle : u ≤ totalUnits lots) :
    totalUnits (dropUnits u lots) = totalUnits lots - u := by
  induction lots generalizing u with
  | nil =>
    rw [totalUnits_nil] at hle
    simp [dropUnits, le_antisymm hle hu]
  | cons lot lots ih =>
    rw [totalUnits_cons] at hle
    rw [dropUnits]
    -- nothing to drop, a whole lot, or a part of the first one
    split_ifs with hnone hwhole
    · rw [le_antisymm hnone hu, sub_zero]
    · rw [ih (sub_nonneg.mpr hwhole) (by linarith), totalUnits_cons]
      ring
    · simp only [totalUnits_cons]
      ring

/-- Taking at least all units takes all lots. -/
theorem takeUnits_of_totalUnits_le (h : AllPositive lots) (hle : totalUnits lots ≤ u) :
    takeUnits u lots = lots := by
  induction lots generalizing u with
  | nil => rfl
  | cons lot lots ih =>
    have hfirst := h lot List.mem_cons_self
    have hrest := h.tail.totalUnits_nonneg
    rw [totalUnits_cons] at hle
    rw [takeUnits, if_neg (by linarith), if_pos (by linarith), ih h.tail (by linarith)]

/-- Units that the first list holds are taken from it. -/
theorem takeUnits_append_of_le (lots' : List (Lot K)) (hle : u ≤ totalUnits lots) :
    takeUnits u (lots ++ lots') = takeUnits u lots := by
  induction lots generalizing u with
  | nil =>
    rw [totalUnits_nil] at hle
    cases lots' <;> simp [takeUnits, hle]
  | cons lot lots ih =>
    rw [totalUnits_cons] at hle
    rw [List.cons_append, takeUnits, takeUnits, ih (by linarith)]

/-- Further units are taken from the second list. -/
theorem takeUnits_append_of_totalUnits_le (h : AllPositive lots) (lots' : List (Lot K))
    (hle : totalUnits lots ≤ u) :
    takeUnits u (lots ++ lots') = lots ++ takeUnits (u - totalUnits lots) lots' := by
  induction lots generalizing u with
  | nil => simp
  | cons lot lots ih =>
    have hfirst := h lot List.mem_cons_self
    have hrest := h.tail.totalUnits_nonneg
    rw [totalUnits_cons] at hle
    rw [List.cons_append, takeUnits, if_neg (by linarith), if_pos (by linarith),
      ih h.tail (by linarith), totalUnits_cons, List.cons_append, sub_sub]

/-- Taking fewer units of what was taken. -/
theorem takeUnits_takeUnits (hle : v ≤ u) (lots : List (Lot K)) :
    takeUnits v (takeUnits u lots) = takeUnits v lots := by
  induction lots generalizing u v with
  | nil => rfl
  | cons lot lots ih =>
    by_cases hv : v ≤ 0
    · rw [takeUnits.eq_2 v lot lots, if_pos hv]
      cases takeUnits u (lot :: lots) <;> simp [takeUnits, hv]
    · -- both take from the first lot; only the larger number may use it up
      rw [takeUnits.eq_2 u lot lots, if_neg (fun hu => hv (hle.trans hu))]
      by_cases hwhole : lot.units ≤ u
      · rw [if_pos hwhole, takeUnits, takeUnits, ih (by linarith)]
      · have hsplit : ¬ lot.units ≤ v := fun h => hwhole (h.trans hle)
        rw [if_neg hwhole, takeUnits, takeUnits.eq_2 v lot lots, if_neg hv, if_neg hv,
          if_neg hsplit]
        split_ifs with hall
        · obtain rfl : u = v := le_antisymm hall hle
          rfl
        · rfl

/-- Dropping the oldest units is keeping the newest ones. -/
theorem reverse_dropUnits (h : AllPositive lots) (hu : 0 ≤ u) (hle : u ≤ totalUnits lots) :
    (dropUnits u lots).reverse = takeUnits (totalUnits lots - u) lots.reverse := by
  induction lots generalizing u with
  | nil => rfl
  | cons lot lots ih =>
    have hfirst := h lot List.mem_cons_self
    have hreverse : AllPositive lots.reverse :=
      fun other hother => h.tail other (List.mem_reverse.mp hother)
    rw [totalUnits_cons] at hle ⊢
    -- the oldest lot is the last one from the other end
    rw [dropUnits, List.reverse_cons]
    split_ifs with hnone hwhole
    · -- nothing is dropped, so all units are taken
      have hall : AllPositive (lots.reverse ++ [lot]) := by
        intro other hother
        rw [← List.reverse_cons, List.mem_reverse] at hother
        exact h other hother
      rw [List.reverse_cons, takeUnits_of_totalUnits_le hall]
      simp only [totalUnits_append, totalUnits_reverse, totalUnits_cons, totalUnits_nil]
      linarith
    · -- the oldest lot is dropped as a whole, so nothing is taken from it
      rw [ih h.tail (sub_nonneg.mpr hwhole) (by linarith),
        takeUnits_append_of_le [lot] (by rw [totalUnits_reverse]; linarith)]
      congr 1
      ring
    · -- the oldest lot is split
      rw [List.reverse_cons, takeUnits_append_of_totalUnits_le hreverse [lot]
        (by rw [totalUnits_reverse]; linarith), totalUnits_reverse]
      have hleft : lot.units + totalUnits lots - u - totalUnits lots = lot.units - u := by ring
      rw [hleft, takeUnits, if_neg (by linarith), if_neg (by linarith)]

end Lot
