import TradingSimulator.Library.ThresholdSplits
import TradingSimulator.Quant.ReturnPredictor
import Mathlib.Data.List.Induction
import Mathlib.Tactic.Linarith

/-!
# The best split of a tree

`_best_split` (`app/quant/return_predictor.py`) sorts the rows by one feature after the other and
gets the error of every cut from running sums. It finds a split that reduces the squared error the
most, among all features and all thresholds (`bestSplit_optimal`).
-/

namespace TradingSimulator.ReturnPredictor

open Series ThresholdSplits

/-! ### The least entry -/

section Argmin

variable {K : Type} [LinearOrder K]

/-- The result of a search for the least entry, where `none` is an infinite one. -/
def IsLeastEntry (costs : List (Option K)) : Option (ℕ × K) → Prop
  | none => ∀ (j : ℕ) (cost : K), costs[j]? ≠ some (some cost)
  | some (k, least) => costs[k]? = some (some least) ∧
      ∀ (j : ℕ) (cost : K), costs[j]? = some (some cost) → least ≤ cost

/-- One more entry in the search for the least one. -/
theorem argmin_concat (costs : List (Option K)) (cost : Option K) :
    argmin (costs ++ [cost]) =
      match argmin costs, cost with
      | best, none => best
      | none, some cost => some (costs.length, cost)
      | some best, some cost =>
        if cost < best.2 then some (costs.length, cost) else some best := by
  rw [argmin, List.zipIdx_append, List.foldl_append, ← argmin]
  cases cost <;> cases argmin costs <;> simp

omit [LinearOrder K] in
/-- An entry of a longer list is an old one or the new one. -/
theorem getElem?_concat_eq_some {costs : List (Option K)} {new : Option K} {j : ℕ} {cost : K}
    (h : (costs ++ [new])[j]? = some (some cost)) :
    costs[j]? = some (some cost) ∨ j = costs.length ∧ new = some cost := by
  rcases Nat.lt_trichotomy j costs.length with hlt | rfl | hgt
  · rw [List.getElem?_append_left hlt] at h
    exact Or.inl h
  · rw [List.getElem?_concat_length, Option.some.injEq] at h
    exact Or.inr ⟨rfl, h⟩
  · rw [List.getElem?_eq_none (by simp; omega)] at h
    cases h

/-- The scan of `np.argmin` ends at the first least entry, or at the first NaN. -/
theorem isLeastEntry_argmin (costs : List (Option K)) : IsLeastEntry costs (argmin costs) := by
  induction costs using List.reverseRecOn with
  | nil =>
    show ∀ (j : ℕ) (cost : K), ([] : List (Option K))[j]? ≠ some (some cost)
    simp
  | append_singleton costs new ih =>
    have hold : ∀ {k : ℕ} {c : K}, costs[k]? = some (some c) →
        (costs ++ [new])[k]? = some (some c) := fun {k c} h => by
      rw [List.getElem?_append_left (List.getElem?_eq_some_iff.mp h).1, h]
    rw [argmin_concat]
    cases new with
    | none =>
      -- an infinite entry changes nothing
      cases hbest : argmin costs with
      | none =>
        rw [hbest] at ih
        intro j cost h
        rcases getElem?_concat_eq_some h with h | ⟨-, h⟩
        · exact ih j cost h
        · cases h
      | some best =>
        rw [hbest] at ih
        refine ⟨hold ih.1, fun j cost h => ?_⟩
        rcases getElem?_concat_eq_some h with h | ⟨-, h⟩
        · exact ih.2 j cost h
        · cases h
    | some new =>
      have hnew : (costs ++ [some new])[costs.length]? = some (some new) :=
        List.getElem?_concat_length
      cases hbest : argmin costs with
      | none =>
        rw [hbest] at ih
        refine ⟨hnew, fun j cost h => ?_⟩
        rcases getElem?_concat_eq_some h with h | ⟨-, h⟩
        · exact absurd h (ih j cost)
        · exact (Option.some.inj h).le
      | some best =>
        rw [hbest] at ih
        by_cases hlt : new < best.2
        · simp only [hlt, if_true]
          refine ⟨hnew, fun j cost h => ?_⟩
          rcases getElem?_concat_eq_some h with h | ⟨-, h⟩
          · exact hlt.le.trans (ih.2 j cost h)
          · exact (Option.some.inj h).le
        · simp only [hlt, if_false]
          refine ⟨hold ih.1, fun j cost h => ?_⟩
          rcases getElem?_concat_eq_some h with h | ⟨-, h⟩
          · exact ih.2 j cost h
          · exact (not_lt.mp hlt).trans (Option.some.inj h).le

end Argmin

/-! ### The cuts of one feature -/

section Cuts

variable {K : Type} [Field K] [LinearOrder K]

omit [LinearOrder K] in
/-- The last of the running sums is the whole sum. -/
theorem getLastD_cumsum {ys : List K} (hne : ys ≠ []) : (cumsum ys).getLastD 0 = ys.sum := by
  have hlast : ys.length - 1 < ys.length := by
    have hpos := List.length_pos_iff.mpr hne
    omega
  rw [List.getLastD_eq_getLast?, List.getLast?_eq_getElem?]
  have hlength : (cumsum ys).length = ys.length := by simp [cumsum, scan]
  rw [hlength, getElem?_cumsum hlast, Option.getD_some, List.take_of_length_le (by omega)]

omit [LinearOrder K] in
theorem getD_cumsum {ys : List K} {k : ℕ} (hk : k < ys.length) :
    (cumsum ys).getD k 0 = (ys.take (k + 1)).sum := by
  rw [List.getD_eq_getElem?_getD, getElem?_cumsum hk, Option.getD_some]

variable [IsStrictOrderedRing K]

/-- The running sums give the squared error on both sides of a cut. -/
theorem cutError_eq {ys : List K} {k : ℕ} (hk : k + 1 < ys.length) :
    let csum := cumsum ys
    let csum2 := cumsum (ys.map fun y => y * y)
    csum2.getD k 0 - csum.getD k 0 * csum.getD k 0 / ((k + 1 : ℕ) : K) +
        (csum2.getLastD 0 - csum2.getD k 0 -
          (csum.getLastD 0 - csum.getD k 0) * (csum.getLastD 0 - csum.getD k 0) /
            ((ys.length - (k + 1) : ℕ) : K)) =
      sse (ys.take (k + 1)) + sse (ys.drop (k + 1)) := by
  intro csum csum2
  have hne : ys ≠ [] := List.length_pos_iff.mp (by omega)
  have hleft : ys.take (k + 1) ≠ [] := List.length_pos_iff.mp (by simp; omega)
  have hright : ys.drop (k + 1) ≠ [] := List.length_pos_iff.mp (by simp; omega)
  -- the sums behind the cut are what is left of the totals
  have hsum : ys.sum - (ys.take (k + 1)).sum = (ys.drop (k + 1)).sum := by
    rw [← List.sum_take_add_sum_drop ys (k + 1), add_sub_cancel_left]
  have hsquares : (ys.map fun y => y * y).sum - ((ys.map fun y => y * y).take (k + 1)).sum =
      ((ys.map fun y => y * y).drop (k + 1)).sum := by
    rw [← List.sum_take_add_sum_drop (ys.map fun y => y * y) (k + 1), add_sub_cancel_left]
  rw [sse_eq hleft, sse_eq hright, List.length_take, List.length_drop, Nat.min_eq_left hk.le,
    List.map_take, List.map_drop, ← hsquares, ← hsum]
  simp only [csum, csum2, getD_cumsum (show k < ys.length by omega),
    getD_cumsum (show k < (ys.map fun y => y * y).length by simp; omega), getLastD_cumsum hne,
    getLastD_cumsum (show (ys.map fun y => y * y) ≠ [] by simpa using hne)]

/-- A cut has an error when it separates two different keys and leaves enough rows on both
sides. -/
theorem getElem?_cutErrors {xs ys : List K} {minLeaf k : ℕ} {cost : K} :
    (cutErrors xs ys minLeaf)[k]? = some (some cost) ↔
      k + 1 < ys.length ∧ xs.getD (k + 1) 0 ≠ xs.getD k 0 ∧ minLeaf ≤ k + 1 ∧
        minLeaf ≤ ys.length - (k + 1) ∧ cost = sse (ys.take (k + 1)) + sse (ys.drop (k + 1)) := by
  unfold cutErrors
  rw [List.getElem?_map]
  by_cases hk : k + 1 < ys.length
  · have herror := cutError_eq hk
    rw [List.getElem?_range (by omega), Option.map_some, Option.some.injEq]
    dsimp only at herror ⊢
    rw [herror]
    split_ifs with hbad
    · refine iff_of_false (by simp) ?_
      rintro ⟨-, hkeys, hleft, hright, -⟩
      rcases hbad with hsame | hshort | hshort
      · exact hkeys hsame
      · omega
      · omega
    · obtain ⟨hkeys, hshort⟩ := not_or.mp hbad
      rw [Option.some.injEq, eq_comm]
      exact ⟨fun h => ⟨hk, hkeys, by omega, by omega, h⟩, fun h => h.2.2.2.2⟩
  · rw [List.getElem?_eq_none (by simp; omega)]
    exact iff_of_false (by simp) fun h => hk h.1

end Cuts

/-! ### The splits of one feature -/

section Splits

variable {K : Type} [Field K] [LinearOrder K]

/-- The entry of a feature in a row of the matrix. -/
def feature (X : List (List K)) (f i : ℕ) : K := (X.getD i []).getD f 0

/-- The labels of the rows up to a threshold. -/
def leftLabels (X : List (List K)) (y : List K) (idx : List ℕ) (f : ℕ) (t : K) : List K :=
  (idx.filter fun i => feature X f i ≤ t).map fun i => y.getD i 0

/-- The labels of the rows above a threshold. -/
def rightLabels (X : List (List K)) (y : List K) (idx : List ℕ) (f : ℕ) (t : K) : List K :=
  (idx.filter fun i => ¬ feature X f i ≤ t).map fun i => y.getD i 0

/-- What a split takes away from the squared error of the rows. -/
def splitGain (X : List (List K)) (y : List K) (idx : List ℕ) (f : ℕ) (t : K) : K :=
  sse (idx.map fun i => y.getD i 0) - (sse (leftLabels X y idx f t) + sse (rightLabels X y idx f t))

/-- A threshold that lies strictly between two values of the feature and leaves enough rows on both
sides. -/
structure Admissible (X : List (List K)) (idx : List ℕ) (minLeaf f : ℕ) (t : K) : Prop where
  below : ∃ i ∈ idx, feature X f i < t
  above : ∃ i ∈ idx, t < feature X f i
  left : minLeaf ≤ (idx.filter fun i => feature X f i ≤ t).length
  right : minLeaf ≤ (idx.filter fun i => ¬ feature X f i ≤ t).length

/-- The rows as pairs of the feature and the label, sorted by the feature. -/
def sortedRows (X : List (List K)) (y : List K) (idx : List ℕ) (f : ℕ) : List (K × K) :=
  ((idx.map fun i => feature X f i).zip (idx.map fun i => y.getD i 0)).mergeSort
    fun a b => a.1 ≤ b.1

/-- The errors of the cuts of the sorted rows. -/
def featureErrors (X : List (List K)) (y : List K) (idx : List ℕ) (minLeaf f : ℕ) :
    List (Option K) :=
  cutErrors ((sortedRows X y idx f).map Prod.fst) ((sortedRows X y idx f).map Prod.snd) minLeaf

/-- The threshold in the middle of a cut. -/
def cutThreshold (X : List (List K)) (y : List K) (idx : List ℕ) (f k : ℕ) : K :=
  let xs := (sortedRows X y idx f).map Prod.fst
  (xs.getD k 0 + xs.getD (k + 1) 0) / ((2 : ℕ) : K)

variable {X : List (List K)} {y : List K} {idx : List ℕ} {minLeaf f : ℕ}

theorem sortedRows_perm (X : List (List K)) (y : List K) (idx : List ℕ) (f : ℕ) :
    (sortedRows X y idx f).Perm (idx.map fun i => (feature X f i, y.getD i 0)) := by
  rw [← List.zip_map']
  exact List.mergeSort_perm _ _

/-- The rows are in the order of the feature. -/
theorem sortedRows_pairwise (X : List (List K)) (y : List K) (idx : List ℕ) (f : ℕ) :
    (sortedRows X y idx f).Pairwise fun a b => a.1 ≤ b.1 := by
  have hsorted : (sortedRows X y idx f).Pairwise fun a b => decide (a.1 ≤ b.1) = true :=
    List.pairwise_mergeSort
      (fun a b c hab hbc => by
        simp only [decide_eq_true_eq] at hab hbc ⊢
        exact hab.trans hbc)
      (fun a b => by simpa using le_total a.1 b.1) _
  exact hsorted.imp fun h => by simpa using h

@[simp]
theorem length_sortedRows : (sortedRows X y idx f).length = idx.length := by
  rw [(sortedRows_perm X y idx f).length_eq, List.length_map]

/-- The number of rows up to a threshold. -/
theorem countP_sortedRows (X : List (List K)) (y : List K) (idx : List ℕ) (f : ℕ) (t : K) :
    ((sortedRows X y idx f).countP fun row => row.1 ≤ t) =
      (idx.filter fun i => feature X f i ≤ t).length := by
  rw [(sortedRows_perm X y idx f).countP_eq, List.countP_map, List.countP_eq_length_filter]
  rfl

/-- Both sides together are all rows. -/
theorem length_sides (X : List (List K)) (idx : List ℕ) (f : ℕ) (t : K) :
    (idx.filter fun i => feature X f i ≤ t).length +
      (idx.filter fun i => ¬ feature X f i ≤ t).length = idx.length := by
  have hsplit := List.length_eq_length_filter_add (l := idx) fun i => decide (feature X f i ≤ t)
  simp only [← decide_not] at hsplit
  exact hsplit.symm

/-- The cut at a threshold has the errors of the split. -/
theorem sse_cut (t : K) {m : ℕ}
    (hm : (idx.filter fun i => feature X f i ≤ t).length = m) :
    sse (((sortedRows X y idx f).map Prod.snd).take m) +
        sse (((sortedRows X y idx f).map Prod.snd).drop m) =
      sse (leftLabels X y idx f t) + sse (rightLabels X y idx f t) := by
  obtain ⟨hbelow, habove⟩ := filter_le_eq_take (sortedRows_pairwise X y idx f) t
  rw [countP_sortedRows, hm] at hbelow habove
  rw [← List.map_take, ← List.map_drop, ← hbelow, ← habove]
  congr 1
  · refine sse_perm ((((sortedRows_perm X y idx f).filter _).map _).trans ?_)
    rw [List.filter_map, List.map_map]
    exact List.Perm.refl _
  · refine sse_perm ((((sortedRows_perm X y idx f).filter _).map _).trans ?_)
    rw [List.filter_map, List.map_map]
    exact List.Perm.refl _

theorem getD_map_fst {k : ℕ} {a : K × K} (ha : (sortedRows X y idx f)[k]? = some a) :
    ((sortedRows X y idx f).map Prod.fst).getD k 0 = a.1 := by
  rw [List.getD_eq_getElem?_getD, List.getElem?_map, ha, Option.map_some, Option.getD_some]

/-- A sorted row is the row of an index. -/
theorem exists_idx_of_getElem? {k : ℕ} {a : K × K} (ha : (sortedRows X y idx f)[k]? = some a) :
    ∃ i ∈ idx, feature X f i = a.1 := by
  have hmem := (sortedRows_perm X y idx f).mem_iff.mp (List.mem_of_getElem? ha)
  obtain ⟨i, hi, rfl⟩ := List.mem_map.mp hmem
  exact ⟨i, hi, rfl⟩

variable [IsStrictOrderedRing K]

/-- Every admissible split is one of the cuts. -/
theorem exists_cut_of_admissible (hminLeaf : 1 ≤ minLeaf) {t : K}
    (h : Admissible X idx minLeaf f t) :
    ∃ k : ℕ, (featureErrors X y idx minLeaf f)[k]? =
      some (some (sse (leftLabels X y idx f t) + sse (rightLabels X y idx f t))) := by
  have hsides := length_sides X idx f t
  -- a leaf is not empty, so there is a last row on the left
  obtain ⟨k, hk⟩ : ∃ k, (idx.filter fun i => feature X f i ≤ t).length = k + 1 :=
    Nat.exists_eq_add_of_le' (hminLeaf.trans h.left)
  have hleft := h.left
  have hright := h.right
  have hcount := (countP_sortedRows X y idx f t).trans hk
  -- the threshold lies between that row and the next one
  obtain ⟨a, b, ha, hb, hle, hlt⟩ := exists_between_of_countP (sortedRows_pairwise X y idx f) hcount
    (show k + 1 < (sortedRows X y idx f).length by rw [length_sortedRows]; omega)
  refine ⟨k, getElem?_cutErrors.mpr ⟨?_, ?_, by omega, ?_, (sse_cut t hk).symm⟩⟩
  · rw [List.length_map, length_sortedRows]
    omega
  · rw [getD_map_fst ha, getD_map_fst hb]
    exact (hle.trans_lt hlt).ne'
  · rw [List.length_map, length_sortedRows]
    omega

/-- Every cut is an admissible split, at the threshold in its middle. -/
theorem admissible_of_cut {k : ℕ} {cost : K}
    (h : (featureErrors X y idx minLeaf f)[k]? = some (some cost)) :
    Admissible X idx minLeaf f (cutThreshold X y idx f k) ∧
      cost = sse (leftLabels X y idx f (cutThreshold X y idx f k)) +
        sse (rightLabels X y idx f (cutThreshold X y idx f k)) := by
  obtain ⟨hk, hkeys, hleft, hright, rfl⟩ := getElem?_cutErrors.mp h
  rw [List.length_map, length_sortedRows] at hk hright
  have hlast : k + 1 < (sortedRows X y idx f).length := by rwa [length_sortedRows]
  obtain ⟨a, ha⟩ : ∃ a, (sortedRows X y idx f)[k]? = some a :=
    ⟨_, List.getElem?_eq_getElem ((Nat.lt_succ_self k).trans hlast)⟩
  obtain ⟨b, hb⟩ : ∃ b, (sortedRows X y idx f)[k + 1]? = some b :=
    ⟨_, List.getElem?_eq_getElem hlast⟩
  have hle : a.1 ≤ b.1 := by
    obtain ⟨hka, rfl⟩ := List.getElem?_eq_some_iff.mp ha
    obtain ⟨hkb, rfl⟩ := List.getElem?_eq_some_iff.mp hb
    exact List.pairwise_iff_getElem.mp (sortedRows_pairwise X y idx f) k (k + 1) hka hkb
      (Nat.lt_succ_self k)
  rw [getD_map_fst ha, getD_map_fst hb] at hkeys
  have hab : a.1 < b.1 := lt_of_le_of_ne hle hkeys.symm
  have hthreshold : cutThreshold X y idx f k = (a.1 + b.1) / 2 := by
    rw [cutThreshold, getD_map_fst ha, getD_map_fst hb, Nat.cast_ofNat]
  have hbelow : a.1 < cutThreshold X y idx f k := by
    rw [hthreshold]
    linarith
  have habove : cutThreshold X y idx f k < b.1 := by
    rw [hthreshold]
    linarith
  -- the threshold splits the rows where the cut does
  have hcount : (idx.filter fun i => feature X f i ≤ cutThreshold X y idx f k).length = k + 1 := by
    rw [← countP_sortedRows X y]
    exact countP_le_eq_of_between (sortedRows_pairwise X y idx f) ha hb hbelow.le habove
  have hsides := length_sides X idx f (cutThreshold X y idx f k)
  obtain ⟨i, hi, hia⟩ := exists_idx_of_getElem? ha
  obtain ⟨j, hj, hjb⟩ := exists_idx_of_getElem? hb
  refine ⟨⟨⟨i, hi, hia ▸ hbelow⟩, ⟨j, hj, hjb ▸ habove⟩, by omega, by omega⟩, ?_⟩
  exact sse_cut _ hcount

/-! ### The best split -/

/-- The outcome of the search over some features: nothing when no admissible split reduces the
error, and otherwise a split that reduces it the most. -/
structure IsBestSplit (X : List (List K)) (y : List K) (idx : List ℕ) (minLeaf : ℕ)
    (feats : List ℕ) (best : Option (ℕ × K) × K) : Prop where
  maximal : ∀ f ∈ feats, ∀ t, Admissible X idx minLeaf f t → splitGain X y idx f t ≤ best.2
  gain_eq : match best.1 with
    | none => best.2 = 0
    | some (f, t) => 0 < best.2 ∧ f ∈ feats ∧ Admissible X idx minLeaf f t ∧
        best.2 = splitGain X y idx f t

/-- The search of one feature. -/
def splitStep (X : List (List K)) (y : List K) (idx : List ℕ) (minLeaf : ℕ)
    (best : Option (ℕ × K) × K) (f : ℕ) : Option (ℕ × K) × K :=
  match argmin (featureErrors X y idx minLeaf f) with
  | none => best
  | some (k, cost) =>
    let gain := sse (idx.map fun i => y.getD i 0) - cost
    if best.2 < gain then (some (f, cutThreshold X y idx f k), gain) else best

omit [IsStrictOrderedRing K] in
theorem bestSplit_eq_foldl (feats : List ℕ) :
    bestSplit X y idx feats minLeaf = feats.foldl (splitStep X y idx minLeaf) (none, 0) :=
  rfl

omit [IsStrictOrderedRing K] in
/-- What has been found is no loss. -/
theorem IsBestSplit.nonneg {feats : List ℕ} {best : Option (ℕ × K) × K}
    (h : IsBestSplit X y idx minLeaf feats best) : 0 ≤ best.2 := by
  have hgain := h.gain_eq
  split at hgain
  · exact hgain.ge
  · exact hgain.1.le

omit [IsStrictOrderedRing K] in
/-- What has been found stays best when one more feature offers nothing better. -/
theorem IsBestSplit.keep {feats : List ℕ} {best : Option (ℕ × K) × K}
    (h : IsBestSplit X y idx minLeaf feats best)
    (hnew : ∀ t, Admissible X idx minLeaf f t → splitGain X y idx f t ≤ best.2) :
    IsBestSplit X y idx minLeaf (feats ++ [f]) best := by
  refine ⟨fun f' hf' t ht => ?_, ?_⟩
  · rcases List.mem_append.mp hf' with hold | hlast
    · exact h.maximal f' hold t ht
    · obtain rfl := List.mem_singleton.mp hlast
      exact hnew t ht
  · -- a split of one of the features is one of more of them
    have hgain := h.gain_eq
    split at hgain
    · exact hgain
    · exact ⟨hgain.1, List.mem_append_left _ hgain.2.1, hgain.2.2⟩

/-- One more feature in the search. -/
theorem IsBestSplit.step (hminLeaf : 1 ≤ minLeaf) {feats : List ℕ} {best : Option (ℕ × K) × K}
    (h : IsBestSplit X y idx minLeaf feats best) :
    IsBestSplit X y idx minLeaf (feats ++ [f]) (splitStep X y idx minLeaf best f) := by
  have hleast := isLeastEntry_argmin (featureErrors X y idx minLeaf f)
  unfold splitStep
  cases hargmin : argmin (featureErrors X y idx minLeaf f) with
  | none =>
    rw [hargmin] at hleast
    refine h.keep fun t ht => ?_
    obtain ⟨k, hk⟩ := exists_cut_of_admissible (y := y) hminLeaf ht
    exact absurd hk (hleast k _)
  | some entry =>
    obtain ⟨k, cost⟩ := entry
    rw [hargmin] at hleast
    obtain ⟨hadmissible, hcost⟩ := admissible_of_cut hleast.1
    -- no threshold of this feature does better than the least error
    have hfeature : ∀ t, Admissible X idx minLeaf f t →
        splitGain X y idx f t ≤ sse (idx.map fun i => y.getD i 0) - cost := by
      intro t ht
      obtain ⟨j, hj⟩ := exists_cut_of_admissible (y := y) hminLeaf ht
      exact sub_le_sub_left (hleast.2 j _ hj) _
    dsimp only
    split_ifs with hbetter
    · refine ⟨fun f' hf' t ht => ?_, h.nonneg.trans_lt hbetter, by simp, hadmissible, ?_⟩
      · rcases List.mem_append.mp hf' with hold | hlast
        · exact (h.maximal f' hold t ht).trans hbetter.le
        · obtain rfl := List.mem_singleton.mp hlast
          exact hfeature t ht
      · rw [splitGain, hcost]
    · exact h.keep fun t ht => (hfeature t ht).trans (not_lt.mp hbetter)

/-- The search over the features finds a best split, if there is one. -/
theorem isBestSplit_bestSplit (X : List (List K)) (y : List K) (idx feats : List ℕ)
    (hminLeaf : 1 ≤ minLeaf) :
    IsBestSplit X y idx minLeaf feats (bestSplit X y idx feats minLeaf) := by
  rw [bestSplit_eq_foldl]
  induction feats using List.reverseRecOn with
  | nil => exact ⟨by simp, rfl⟩
  | append_singleton feats f ih =>
    rw [List.foldl_append]
    exact ih.step hminLeaf

/-- No split is found exactly when no admissible split of a feature reduces the squared error; a
split that is found is admissible, its gain is what it takes away from the squared error, and no
admissible split of any feature takes away more. -/
theorem bestSplit_optimal (X : List (List K)) (y : List K) (idx feats : List ℕ) (minLeaf : ℕ)
    (hminLeaf : 1 ≤ minLeaf) :
    ((bestSplit X y idx feats minLeaf).1 = none ↔
        ∀ f ∈ feats, ∀ t, Admissible X idx minLeaf f t → splitGain X y idx f t ≤ 0) ∧
      ∀ f t gain, bestSplit X y idx feats minLeaf = (some (f, t), gain) →
        f ∈ feats ∧ Admissible X idx minLeaf f t ∧ gain = splitGain X y idx f t ∧ 0 < gain ∧
          ∀ f' ∈ feats, ∀ t', Admissible X idx minLeaf f' t' →
            splitGain X y idx f' t' ≤ gain := by
  have hbest := isBestSplit_bestSplit X y idx feats hminLeaf
  have hgain := hbest.gain_eq
  have hmaximal := hbest.maximal
  refine ⟨⟨fun hnone => ?_, fun hreduces => ?_⟩, fun f t gain hsome => ?_⟩
  · -- without a split the best gain is still the zero it has started from
    rw [hnone] at hgain
    rwa [hgain] at hmaximal
  · -- a split that was found has a positive gain
    by_contra hne
    obtain ⟨⟨f, t⟩, hsplit⟩ := Option.ne_none_iff_exists'.mp hne
    rw [hsplit] at hgain
    obtain ⟨hpos, hf, hadmissible, heq⟩ := hgain
    exact absurd (hreduces f hf t hadmissible) (not_le.mpr (heq ▸ hpos))
  · rw [hsome] at hgain hmaximal
    obtain ⟨hpos, hf, hadmissible, heq⟩ := hgain
    exact ⟨hf, hadmissible, heq, hpos, hmaximal⟩

end Splits

/-- One feature, whose last row is drawn twice. -/
theorem bestSplit_optimal_drawnTwice :
    ((bestSplit [[1], [2], [(3 : ℚ)]] [0, 0, 6] [0, 1, 2, 2] [0] 1).1 = none ↔
        ∀ f ∈ [0], ∀ t, Admissible [[1], [2], [(3 : ℚ)]] [0, 1, 2, 2] 1 f t →
          splitGain [[1], [2], [(3 : ℚ)]] [0, 0, 6] [0, 1, 2, 2] f t ≤ 0) ∧
      ∀ f t gain, bestSplit [[1], [2], [(3 : ℚ)]] [0, 0, 6] [0, 1, 2, 2] [0] 1 =
          (some (f, t), gain) →
        f ∈ [0] ∧ Admissible [[1], [2], [(3 : ℚ)]] [0, 1, 2, 2] 1 f t ∧
          gain = splitGain [[1], [2], [(3 : ℚ)]] [0, 0, 6] [0, 1, 2, 2] f t ∧ 0 < gain ∧
          ∀ f' ∈ [0], ∀ t', Admissible [[1], [2], [(3 : ℚ)]] [0, 1, 2, 2] 1 f' t' →
            splitGain [[1], [2], [(3 : ℚ)]] [0, 0, 6] [0, 1, 2, 2] f' t' ≤ gain :=
  bestSplit_optimal _ _ _ _ 1 le_rfl

end TradingSimulator.ReturnPredictor
