import TradingSimulator.Library.Lots
import Mathlib.Algebra.Order.Group.MinMax

/-!
# Lots on the axis of cumulative units

Lots that stand one behind the other occupy consecutive intervals of the cumulative number of
units. Two such sequences, of units bought and of units sold, are matched where their intervals
overlap: `matchedGain` is the gain of the sales over the purchases they overlap with.

What is sold overlaps with the first units bought, so the gain is the proceeds less the cost of
those units (`matchedGain_eq`). Taking units in several portions takes the same units as taking
them at once (`totalValue_takeUnits_dropUnits`, `dropUnits_dropUnits`).
-/

namespace Lot

variable {K : Type*} [Field K]

/-- An interval of cumulative units, all at one price. -/
structure Interval (K : Type*) where
  start : K
  stop : K
  price : K

/-- The intervals that lots occupy when the first one begins at `start`. -/
def intervals (start : K) : List (Lot K) → List (Interval K)
  | [] => []
  | lot :: lots =>
    ⟨start, start + lot.units, lot.unitCost⟩ :: intervals (start + lot.units) lots

/-- What the lots are worth when a unit bought at `c` is worth `w c`. -/
def totalValue (w : K → K) (lots : List (Lot K)) : K :=
  (lots.map fun lot => lot.units * w lot.unitCost).sum

@[simp] theorem totalValue_nil (w : K → K) : totalValue w [] = 0 := rfl

@[simp] theorem totalValue_cons (w : K → K) (lot : Lot K) (lots : List (Lot K)) :
    totalValue w (lot :: lots) = lot.units * w lot.unitCost + totalValue w lots := by
  simp [totalValue]

/-- A unit that is worth its cost. -/
theorem totalValue_id (lots : List (Lot K)) : totalValue id lots = totalCost lots := rfl

/-- A margin over the unit costs, in total. -/
theorem totalValue_sub (price : K) (lots : List (Lot K)) :
    totalValue (fun c => price - c) lots = price * totalUnits lots - totalCost lots := by
  induction lots with
  | nil => simp
  | cons lot lots ih =>
    rw [totalValue_cons, ih, totalUnits_cons, totalCost_cons]
    ring

variable [LinearOrder K]

/-- The length of the common part of two intervals. -/
def overlap (a b : Interval K) : K := max 0 (min a.stop b.stop - max a.start b.start)

/-- The gain of sales over the purchases that they overlap with. -/
def matchedGain (bought sold : List (Lot K)) : K :=
  ((intervals 0 sold).map fun sale =>
    ((intervals 0 bought).map fun buy => (sale.price - buy.price) * overlap buy sale).sum).sum

/-- No lot holds less than nothing. -/
def AllNonneg (lots : List (Lot K)) : Prop := ∀ lot ∈ lots, 0 ≤ lot.units

theorem AllNonneg.tail {lot : Lot K} {lots : List (Lot K)} (h : AllNonneg (lot :: lots)) :
    AllNonneg lots :=
  fun other hother => h other (List.mem_cons_of_mem _ hother)

theorem takeUnits_of_nonpos {u : K} (hu : u ≤ 0) (lots : List (Lot K)) :
    takeUnits u lots = [] := by
  cases lots with
  | nil => rfl
  | cons lot lots => rw [takeUnits, if_pos hu]

theorem dropUnits_of_nonpos {u : K} (hu : u ≤ 0) (lots : List (Lot K)) :
    dropUnits u lots = lots := by
  cases lots with
  | nil => rfl
  | cons lot lots => rw [dropUnits, if_pos hu]

variable [IsStrictOrderedRing K] {u v : K} {lots : List (Lot K)}

theorem AllNonneg.totalUnits_nonneg (h : AllNonneg lots) : 0 ≤ totalUnits lots := by
  apply List.sum_nonneg
  intro units hunits
  obtain ⟨lot, hlot, rfl⟩ := List.mem_map.mp hunits
  exact h lot hlot

/-- Lots that hold nothing altogether cost nothing. -/
theorem AllNonneg.totalCost_eq_zero (h : AllNonneg lots) (hzero : totalUnits lots = 0) :
    totalCost lots = 0 := by
  induction lots with
  | nil => rfl
  | cons lot lots ih =>
    rw [totalUnits_cons] at hzero
    have hfirst := h lot List.mem_cons_self
    have hrest := h.tail.totalUnits_nonneg
    have hnone : lot.units = 0 := by linarith
    rw [totalCost_cons, ih h.tail (by linarith), hnone, zero_mul, add_zero]

/-- Dropping units leaves no lot with less than nothing. -/
theorem AllNonneg.dropUnits (h : AllNonneg lots) (u : K) : AllNonneg (dropUnits u lots) := by
  induction lots generalizing u with
  | nil => exact h
  | cons lot lots ih =>
    rw [Lot.dropUnits]
    split_ifs with hnone hwhole
    · exact h
    · exact ih h.tail _
    · rintro other (_ | ⟨_, hother⟩)
      · exact (sub_pos.mpr (not_le.mp hwhole)).le
      · exact h.tail other hother

/-! ### Taking units in portions -/

/-- The value of the first units, lot by lot: the first lot gives what it has of them. -/
theorem totalValue_takeUnits_cons (w : K → K) (lot : Lot K) (hlot : 0 ≤ lot.units) (u : K)
    (lots : List (Lot K)) :
    totalValue w (takeUnits u (lot :: lots)) =
      max 0 (min lot.units u) * w lot.unitCost + totalValue w (takeUnits (u - lot.units) lots) := by
  rw [takeUnits]
  split_ifs with hnone hwhole
  · have hrest : u - lot.units ≤ 0 := by linarith
    rw [takeUnits_of_nonpos hrest, max_eq_left ((min_le_right _ _).trans hnone)]
    simp
  · rw [min_eq_left hwhole, max_eq_right hlot, totalValue_cons]
  · have hrest : u - lot.units ≤ 0 := by linarith
    rw [takeUnits_of_nonpos hrest, min_eq_right (not_le.mp hwhole).le,
      max_eq_right (not_le.mp hnone).le]
    simp

/-- The units behind the first `u` ones are what is taken beyond these. -/
theorem totalValue_takeUnits_dropUnits (w : K → K) (hlots : AllNonneg lots) (hu : 0 ≤ u)
    (hv : 0 ≤ v) :
    totalValue w (takeUnits v (dropUnits u lots)) =
      totalValue w (takeUnits (u + v) lots) - totalValue w (takeUnits u lots) := by
  induction lots generalizing u with
  | nil => simp [dropUnits, takeUnits]
  | cons lot lots ih =>
    have hlot := hlots lot List.mem_cons_self
    rw [totalValue_takeUnits_cons w lot hlot, totalValue_takeUnits_cons w lot hlot, dropUnits]
    split_ifs with hnone hwhole
    · -- nothing has been taken before
      obtain rfl : u = 0 := le_antisymm hnone hu
      rw [totalValue_takeUnits_cons w lot hlot, zero_add, zero_sub,
        takeUnits_of_nonpos (neg_nonpos.mpr hlot), min_eq_right hlot]
      simp
    · -- the first lot is gone, and both sides take from the others
      rw [ih hlots.tail (sub_nonneg.mpr hwhole), min_eq_left hwhole,
        min_eq_left (show lot.units ≤ u + v by linarith), sub_add_eq_add_sub]
      ring
    · -- the first lot is cut
      rw [not_le] at hwhole
      have hcut : 0 ≤ lot.units - u := sub_nonneg.mpr hwhole.le
      have hbefore : max 0 (min lot.units u) = u := by
        rw [min_eq_right hwhole.le, max_eq_right hu]
      have hboth : max 0 (min lot.units (u + v)) = u + max 0 (min (lot.units - u) v) := by
        rw [max_eq_right (le_min hlot (add_nonneg hu hv)), max_eq_right (le_min hcut hv),
          ← min_add_add_left, add_sub_cancel]
      have hrest : v - (lot.units - u) = u + v - lot.units := by ring
      rw [totalValue_takeUnits_cons w { lot with units := lot.units - u } hcut, hbefore,
        hboth, takeUnits_of_nonpos (sub_neg.mpr hwhole).le]
      simp only [hrest, totalValue_nil]
      ring

/-- Dropping units in two portions. -/
theorem dropUnits_dropUnits (hlots : AllNonneg lots) (hu : 0 ≤ u) (hv : 0 ≤ v) :
    dropUnits v (dropUnits u lots) = dropUnits (u + v) lots := by
  induction lots generalizing u with
  | nil => rfl
  | cons lot lots ih =>
    have hlot := hlots lot List.mem_cons_self
    by_cases hnone : u ≤ 0
    · obtain rfl : u = 0 := le_antisymm hnone hu
      rw [dropUnits_of_nonpos hnone, zero_add]
    -- the first portion ends behind the first lot or within it
    have hsome : ¬ u + v ≤ 0 := by linarith
    rw [dropUnits.eq_2 u, if_neg hnone, dropUnits.eq_2 (u + v), if_neg hsome]
    by_cases hwhole : lot.units ≤ u
    · rw [if_pos hwhole, if_pos (show lot.units ≤ u + v by linarith),
        ih hlots.tail (sub_nonneg.mpr hwhole), sub_add_eq_add_sub]
    -- within it: the second portion takes from what is left of the lot
    rw [if_neg hwhole, dropUnits]
    rw [not_le] at hwhole
    by_cases hnothing : v ≤ 0
    · obtain rfl : v = 0 := le_antisymm hnothing hv
      rw [if_pos hnothing, add_zero, if_neg (not_le.mpr hwhole)]
    · by_cases hcut : lot.units - u ≤ v
      · rw [if_neg hnothing, if_pos hcut, if_pos (show lot.units ≤ u + v by linarith)]
        congr 1
        ring
      · rw [if_neg hnothing, if_neg hcut, if_neg (show ¬ lot.units ≤ u + v by linarith), sub_sub]

/-- A new lot stands behind what is left of the old ones. -/
theorem dropUnits_append (hle : u ≤ totalUnits lots) (lots' : List (Lot K)) :
    dropUnits u (lots ++ lots') = dropUnits u lots ++ lots' := by
  induction lots generalizing u with
  | nil =>
    rw [totalUnits_nil] at hle
    simp [dropUnits_of_nonpos hle]
  | cons lot lots ih =>
    rw [totalUnits_cons] at hle
    rw [List.cons_append, dropUnits, dropUnits]
    split_ifs
    · rfl
    · rw [ih (by linarith)]
    · rfl

/-! ### Overlaps -/

/-- The part of a lot that lies between two positions. -/
theorem overlap_eq_sub (a b : K) {c d : K} (price price' : K) (hcd : c ≤ d) :
    overlap ⟨a, b, price⟩ ⟨c, d, price'⟩ =
      max 0 (min (b - a) (d - a)) - max 0 (min (b - a) (c - a)) := by
  rw [overlap, min_sub_sub_right, min_sub_sub_right]
  show max 0 (min b d - max a c) = _
  rcases le_total c a with hca | hac
  · -- nothing of the lot lies before the interval
    have hbefore : min b c - a ≤ 0 := sub_nonpos.mpr ((min_le_right b c).trans hca)
    rw [max_eq_left hca, max_eq_left hbefore, sub_zero]
  rw [max_eq_right hac]
  rcases le_total b c with hbc | hcb
  · -- all of it lies before
    rw [min_eq_left hbc, min_eq_left (hbc.trans hcd), sub_self, max_eq_left (sub_nonpos.mpr hbc)]
  · have hstop : c ≤ min b d := le_min hcb hcd
    rw [min_eq_right hcb, max_eq_right (sub_nonneg.mpr hstop),
      max_eq_right (sub_nonneg.mpr (hac.trans hstop)), max_eq_right (sub_nonneg.mpr hac),
      sub_sub_sub_cancel_right]

/-- The lots weighted by their overlap with an interval are worth what the interval takes. -/
theorem sum_overlap_eq (w : K → K) (hlots : AllNonneg lots) (start : K) (sale : Interval K)
    (hsale : sale.start ≤ sale.stop) :
    ((intervals start lots).map fun buy => w buy.price * overlap buy sale).sum =
      totalValue w (takeUnits (sale.stop - start) lots) -
        totalValue w (takeUnits (sale.start - start) lots) := by
  induction lots generalizing start with
  | nil => simp [intervals, takeUnits]
  | cons lot lots ih =>
    have hlot := hlots lot List.mem_cons_self
    have hpart := overlap_eq_sub start (start + lot.units) lot.unitCost sale.price hsale
    rw [add_sub_cancel_left] at hpart
    rw [intervals, List.map_cons, List.sum_cons, ih hlots.tail,
      totalValue_takeUnits_cons w lot hlot,
      totalValue_takeUnits_cons w lot hlot, hpart, sub_sub, sub_sub]
    ring

/-- The gain of one sale over the purchases it overlaps with. -/
theorem sum_gain_eq (hlots : AllNonneg lots) (sale : Interval K) (hsale : sale.start ≤ sale.stop) :
    ((intervals 0 lots).map fun buy => (sale.price - buy.price) * overlap buy sale).sum =
      totalValue (fun c => sale.price - c) (takeUnits sale.stop lots) -
        totalValue (fun c => sale.price - c) (takeUnits sale.start lots) := by
  have hsum := sum_overlap_eq (fun c => sale.price - c) hlots 0 sale hsale
  simpa only [sub_zero] using hsum

/-- Units that are there are taken. -/
theorem totalUnits_takeUnits (hlots : AllNonneg lots) (hu : 0 ≤ u) (hle : u ≤ totalUnits lots) :
    totalUnits (takeUnits u lots) = u := by
  induction lots generalizing u with
  | nil => exact le_antisymm hu hle
  | cons lot lots ih =>
    rw [totalUnits_cons] at hle
    rw [takeUnits]
    split_ifs with hnone hwhole
    · exact le_antisymm hu hnone
    · rw [totalUnits_cons, ih hlots.tail (sub_nonneg.mpr hwhole) (by linarith)]
      ring
    · simp

/-- Sales that the purchases cover gain their proceeds less the cost of the units bought first. -/
theorem matchedGain_eq {bought sold : List (Lot K)} (hbought : AllNonneg bought)
    (hsold : AllNonneg sold) (hle : totalUnits sold ≤ totalUnits bought) :
    matchedGain bought sold =
      totalCost sold - totalCost (takeUnits (totalUnits sold) bought) := by
  -- along the sales, from the position that the ones before have reached
  have hfrom : ∀ start, 0 ≤ start → start + totalUnits sold ≤ totalUnits bought →
      ((intervals start sold).map fun sale =>
        ((intervals 0 bought).map fun buy =>
          (sale.price - buy.price) * overlap buy sale).sum).sum =
        totalCost sold - (totalCost (takeUnits (start + totalUnits sold) bought) -
          totalCost (takeUnits start bought)) := by
    clear hle
    induction sold with
    | nil => simp [intervals]
    | cons sale sold ih =>
      intro start hstart hle
      have hsale := hsold sale List.mem_cons_self
      have hrest := hsold.tail.totalUnits_nonneg
      rw [totalUnits_cons] at hle
      rw [intervals, List.map_cons, List.sum_cons, ih hsold.tail _ (by linarith) (by linarith),
        sum_gain_eq hbought _ (le_add_of_nonneg_right hsale), totalValue_sub, totalValue_sub,
        totalUnits_takeUnits hbought (by linarith) (by linarith),
        totalUnits_takeUnits hbought hstart (by linarith), totalUnits_cons, totalCost_cons,
        add_assoc]
      ring
  have hzero := hfrom 0 le_rfl (by rwa [zero_add])
  rwa [takeUnits_of_nonpos le_rfl, totalCost_nil, sub_zero, zero_add] at hzero

end Lot
