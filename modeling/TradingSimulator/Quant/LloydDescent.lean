import TradingSimulator.Quant.RegimeModel
import TradingSimulator.Library.SampleMoments

/-!
# The descent of the regime clusters

Lloyd's loop in `_numpy_kmeans` (`app/quant/regime/regime_model.py`) assigns every row to its
nearest centre and moves each centre to the mean of its rows. Neither of the two can increase the
squared distances from the rows to the centres of their labels, and where the labels repeat nothing
moves any more (`lloyd_descends`). The loop starts from labels that are all zero, which belong to no
assignment, but its first assignment is never all zero: a centre is a row, and the row of the second
centre is not nearest to the first.
-/

namespace TradingSimulator.RegimeModel

open Clustering SampleMoments

section Definitions

variable {d : ℕ} {K : Type} [Field K]

/-- The squared distances from the rows to the centres of their labels. -/
def objective (X : List (Fin d → K)) (state : List ℕ × List (Fin d → K)) : K :=
  ((X.zip state.1).map fun row => sqDist row.1 (state.2[row.2]?.getD 0)).sum

/-- One pass neither increases the objective nor moves the centre of an empty cluster. -/
def Descends [LE K] (X : List (Fin d → K)) (state next : List ℕ × List (Fin d → K)) : Prop :=
  objective X next ≤ objective X state ∧
    ∀ c : ℕ, pts X next.1 c = [] → next.2[c]? = state.2[c]?

/-- Every centre with rows is their mean. -/
def IsCentred (X : List (Fin d → K)) (state : List ℕ × List (Fin d → K)) : Prop :=
  ∀ c : ℕ, pts X state.1 c ≠ [] → state.2[c]? = some (centroid (pts X state.1 c))

/-- `label` is the lowest index of a centre that is nearest to `x`. -/
def IsNearest [LE K] [LT K] (C : List (Fin d → K)) (x : Fin d → K) (label : ℕ) : Prop :=
  ∃ center, C[label]? = some center ∧ (∀ c ∈ C, sqDist x center ≤ sqDist x c) ∧
    ∀ (j : ℕ) (c : Fin d → K), j < label → C[j]? = some c → sqDist x center < sqDist x c

variable [LinearOrder K]

/-- The labels and centres after each pass of Lloyd's loop that does not stop it. -/
def lloydPasses (sqrt : K → K) (X : List (Fin d → K)) :
    ℕ → List ℕ → List (Fin d → K) → List (List ℕ × List (Fin d → K))
  | 0, _, _ => []
  | iters + 1, labels, C =>
    let new := assign sqrt X C
    -- the loop breaks before the centres are moved
    if new = labels then []
    else (new, updateCenters X new C) :: lloydPasses sqrt X iters new (updateCenters X new C)

end Definitions

section Update

variable {d : ℕ} {K : Type} {X C : List (Fin d → K)} {labels : List ℕ}

/-- A row is among those of its label. -/
theorem mem_pts {x : Fin d → K} {c : ℕ} : x ∈ pts X labels c ↔ (x, c) ∈ X.zip labels := by
  simp [pts]

/-- A label with rows is the index of a centre. -/
theorem lt_of_pts_ne_nil (hlabels : IsLabelling X C.length labels) {c : ℕ}
    (hc : pts X labels c ≠ []) : c < C.length := by
  obtain ⟨x, hx⟩ := List.exists_mem_of_ne_nil _ hc
  exact hlabels.2 c (List.of_mem_zip (mem_pts.mp hx)).2

variable [Field K]

theorem getElem?_updateCenters (labels : List ℕ) (c : ℕ) :
    (updateCenters X labels C)[c]? = C[c]?.map fun center =>
      if pts X labels c = [] then center else centroid (pts X labels c) := by
  rw [updateCenters, List.getElem?_mapIdx]

/-- The new centers are the means of their clusters. -/
theorem isCentred_updateCenters (hlabels : IsLabelling X C.length labels) :
    IsCentred X (labels, updateCenters X labels C) := by
  intro c hc
  rw [getElem?_updateCenters, List.getElem?_eq_getElem (lt_of_pts_ne_nil hlabels hc),
    Option.map_some, if_neg hc]

theorem getElem?_updateCenters_of_empty {c : ℕ} (hc : pts X labels c = []) :
    (updateCenters X labels C)[c]? = C[c]? := by
  rw [getElem?_updateCenters]
  simp [hc]

/-- The objective, cluster by cluster. -/
theorem objective_eq_sum {k : ℕ} (hlabels : IsLabelling X k labels) (C : List (Fin d → K)) :
    objective X (labels, C) = ∑ c ∈ Finset.range k,
      ((pts X labels c).map fun x => sqDist x (C[c]?.getD 0)).sum :=
  sum_map_eq_sum_filter (fun _ hrow => hlabels.2 _ (List.of_mem_zip hrow).2)
    fun x c => sqDist x (C[c]?.getD 0)

variable [LinearOrder K] [IsStrictOrderedRing K]

/-- Moving the centres to the means does not increase the objective. -/
theorem objective_updateCenters_le (hlabels : IsLabelling X C.length labels) :
    objective X (labels, updateCenters X labels C) ≤ objective X (labels, C) := by
  rw [objective_eq_sum hlabels, objective_eq_sum hlabels]
  apply Finset.sum_le_sum
  intro c hc
  -- a centre without rows stays where it is, and adds nothing
  by_cases hpts : pts X labels c = []
  · rw [getElem?_updateCenters_of_empty hpts]
  · have hcenter := isCentred_updateCenters hlabels c hpts
    rw [hcenter, Option.getD_some]
    exact sum_sqDist_centroid_le _ _

end Update

section Assignment

variable {d : ℕ} {K : Type} [Field K] [LinearOrder K] [IsStrictOrderedRing K] {sqrt : K → K}
  {X C : List (Fin d → K)}

/-- The label of a row is the lowest index of a nearest centre: roots compare as the squares do. -/
theorem isNearest_argmin (hsqrt : IsSqrt sqrt) (hC : C ≠ []) (x : Fin d → K) :
    IsNearest C x (argmin (C.map fun c => sqrt (sqDist x c))) := by
  obtain ⟨dist, hdist, hle, hlt⟩ :=
    argmin_spec (l := C.map fun c => sqrt (sqDist x c)) (by simpa using hC)
  rw [List.getElem?_map, Option.map_eq_some_iff] at hdist
  obtain ⟨center, hcenter, rfl⟩ := hdist
  -- the distances are roots, which are ordered as the squared distances are
  refine ⟨center, hcenter, ?_, ?_⟩
  · intro c hc
    rw [← hsqrt.le_iff (sqDist_nonneg x center) (sqDist_nonneg x c)]
    exact hle _ (List.mem_map_of_mem hc)
  · intro j c hj hc
    rw [← not_le, ← hsqrt.le_iff (sqDist_nonneg x c) (sqDist_nonneg x center), not_le]
    apply hlt j _ hj
    rw [List.getElem?_map, hc, Option.map_some]

theorem isNearest_assign (hsqrt : IsSqrt sqrt) (hC : C ≠ []) {i : ℕ} {x : Fin d → K}
    (hx : X[i]? = some x) : ∃ label, (assign sqrt X C)[i]? = some label ∧ IsNearest C x label := by
  refine ⟨_, ?_, isNearest_argmin hsqrt hC x⟩
  rw [assign, List.getElem?_map, hx, Option.map_some]

/-- Assigning the rows to their nearest centres does not increase the objective. -/
theorem objective_assign_le (hsqrt : IsSqrt sqrt) {labels : List ℕ}
    (hlabels : IsLabelling X C.length labels) :
    objective X (assign sqrt X C, C) ≤ objective X (labels, C) := by
  obtain ⟨hlength, hlt⟩ := hlabels
  -- row by row, the two lists of labels side by side
  induction X generalizing labels with
  | nil => exact le_rfl
  | cons x X ih =>
    obtain _ | ⟨label, labels⟩ := labels
    · exact absurd hlength (by simp)
    · rw [List.forall_mem_cons] at hlt
      have hC : C ≠ [] := List.ne_nil_of_length_pos ((Nat.zero_le label).trans_lt hlt.1)
      obtain ⟨center, hcenter, hle, -⟩ := isNearest_argmin hsqrt hC x
      have hrest := ih (by simpa using hlength) hlt.2
      simp only [objective, assign, List.map_cons, List.zip_cons_cons, List.sum_cons] at hrest ⊢
      apply add_le_add _ hrest
      rw [hcenter, Option.getD_some, List.getElem?_eq_getElem hlt.1, Option.getD_some]
      exact hle _ (List.getElem_mem hlt.1)

/-- One pass descends. -/
theorem descends_pass (hsqrt : IsSqrt sqrt) (hC : C ≠ []) {labels : List ℕ}
    (hlabels : IsLabelling X C.length labels) :
    Descends X (labels, C) (assign sqrt X C, updateCenters X (assign sqrt X C) C) := by
  refine ⟨?_, fun c hc => getElem?_updateCenters_of_empty hc⟩
  calc objective X (assign sqrt X C, updateCenters X (assign sqrt X C) C)
      ≤ objective X (assign sqrt X C, C) := objective_updateCenters_le (isLabelling_assign hC)
    _ ≤ objective X (labels, C) := objective_assign_le hsqrt hlabels

/-- The first labels are not all zero, since the second centre is a row of its own. -/
theorem assign_ne_zeros (hsqrt : IsSqrt sqrt) (hk : 2 ≤ C.length) (hnodup : C.Nodup)
    (hC : C ⊆ X) : assign sqrt X C ≠ List.replicate X.length 0 := by
  intro hzeros
  obtain ⟨i, hi, hrow⟩ := List.mem_iff_getElem.mp (hC (List.getElem_mem hk))
  have hx : X[i]? = some C[1] := by rw [List.getElem?_eq_getElem hi, hrow]
  have hne : C ≠ [] := List.ne_nil_of_length_pos (by omega)
  obtain ⟨label, hlabel, center, hcenter, hle, -⟩ := isNearest_assign hsqrt hne hx
  -- the row would be nearest to the first centre, at distance zero, and so equal to it
  rw [hzeros, List.getElem?_replicate, if_pos hi] at hlabel
  obtain rfl := Option.some_inj.mp hlabel
  rw [List.getElem?_eq_getElem ((Nat.zero_lt_two).trans_le hk)] at hcenter
  obtain rfl := Option.some_inj.mp hcenter
  have hzero := hle _ (List.getElem_mem hk)
  rw [sqDist_eq_zero_iff.mpr (rfl : C[1] = C[1])] at hzero
  have heq := sqDist_eq_zero_iff.mp (le_antisymm hzero (sqDist_nonneg _ _))
  exact absurd ((List.Nodup.getElem_inj_iff hnodup).mp heq) one_ne_zero

end Assignment

section Runs

variable {d : ℕ} {K : Type} [Field K] [LinearOrder K] {sqrt : K → K} {X C : List (Fin d → K)}
  {labels : List ℕ}

/-- The loop returns what its last pass leaves. -/
theorem lloyd_eq_getLastD (iters : ℕ) :
    lloyd sqrt X iters labels C = (lloydPasses sqrt X iters labels C).getLastD (labels, C) := by
  induction iters generalizing labels C with
  | zero => rfl
  | succ iters ih =>
    simp only [lloyd, lloydPasses]
    -- a loop that breaks returns the state it is in
    split_ifs with hnew
    · rfl
    · rw [List.getLastD_cons, ih]

/-- The passes keep the number of the centers. -/
theorem length_lloyd (iters : ℕ) : (lloyd sqrt X iters labels C).2.length = C.length := by
  induction iters generalizing labels C with
  | zero => rfl
  | succ iters ih =>
    rw [lloyd]
    split_ifs
    · rfl
    · rw [ih, length_updateCenters]

/-- Labels that are not the nearest ones lead to a pass. -/
theorem lloydPasses_ne_nil (hnew : assign sqrt X C ≠ labels) {iters : ℕ} (hiters : 0 < iters) :
    lloydPasses sqrt X iters labels C ≠ [] := by
  obtain _ | iters := iters
  · exact absurd hiters (lt_irrefl 0)
  · simp only [lloydPasses, if_neg hnew]
    exact List.cons_ne_nil _ _

/-- Where the loop stops early, the labels are those of the centres that it leaves. -/
theorem assign_lloyd {iters : ℕ} (hstop : (lloydPasses sqrt X iters labels C).length < iters) :
    assign sqrt X (lloyd sqrt X iters labels C).2 = (lloyd sqrt X iters labels C).1 := by
  induction iters generalizing labels C with
  | zero => exact absurd hstop (Nat.not_lt_zero _)
  | succ iters ih =>
    simp only [lloyd, lloydPasses] at hstop ⊢
    -- the break itself says that the new labels are the old ones
    split_ifs at hstop ⊢ with hnew
    · exact hnew
    · exact ih (Nat.lt_of_succ_lt_succ hstop)

/-- What every pass leaves is centred. -/
theorem isCentred_of_mem_lloydPasses (hC : C ≠ []) {iters : ℕ} :
    ∀ state ∈ lloydPasses sqrt X iters labels C, IsCentred X state := by
  induction iters generalizing labels C with
  | zero => exact fun state hstate => absurd hstate List.not_mem_nil
  | succ iters ih =>
    simp only [lloydPasses]
    split_ifs with hnew
    · exact fun state hstate => absurd hstate List.not_mem_nil
    · have hne : updateCenters X (assign sqrt X C) C ≠ [] := by
        rwa [← List.length_pos_iff, length_updateCenters, List.length_pos_iff]
      rw [List.forall_mem_cons]
      exact ⟨isCentred_updateCenters (isLabelling_assign hC), ih hne⟩

variable [IsStrictOrderedRing K]

/-- Each pass descends from the one before. -/
theorem isChain_lloydPasses (hsqrt : IsSqrt sqrt) (hC : C ≠ [])
    (hlabels : IsLabelling X C.length labels) (iters : ℕ) :
    ((labels, C) :: lloydPasses sqrt X iters labels C).IsChain (Descends X) := by
  induction iters generalizing labels C with
  | zero => exact List.IsChain.singleton _
  | succ iters ih =>
    simp only [lloydPasses]
    split_ifs with hnew
    · exact List.IsChain.singleton _
    -- the rest of the loop starts from an assignment to centres of the same number
    · rw [List.isChain_cons_cons]
      refine ⟨descends_pass hsqrt hC hlabels, ih ?_ ?_⟩
      · rwa [← List.length_pos_iff, length_updateCenters, List.length_pos_iff]
      · rw [length_updateCenters]
        exact isLabelling_assign hC

/-- The objective never increases from one pass to the next. Where the loop stops before its limit,
every row has the lowest index of a nearest centre, and every centre with rows is their mean. -/
theorem lloyd_descends (hsqrt : IsSqrt sqrt) (hk : 2 ≤ C.length) (hnodup : C.Nodup) (hC : C ⊆ X)
    (iters : ℕ) :
    let zeros := List.replicate X.length 0
    let passes := lloydPasses sqrt X iters zeros C
    let final := lloyd sqrt X iters zeros C
    final = passes.getLastD (zeros, C) ∧ passes.IsChain (Descends X) ∧
      (passes.length < iters →
        (∀ (i : ℕ) (x : Fin d → K), X[i]? = some x →
          ∃ label, final.1[i]? = some label ∧ IsNearest final.2 x label) ∧
        IsCentred X final) := by
  intro zeros passes final
  have hne : C ≠ [] := List.ne_nil_of_length_pos (by omega)
  have hzeros : IsLabelling X C.length zeros := by
    refine ⟨List.length_replicate, fun label hlabel => ?_⟩
    rw [List.eq_of_mem_replicate hlabel]
    omega
  have hlast : final = passes.getLastD (zeros, C) := lloyd_eq_getLastD iters
  refine ⟨hlast, (isChain_lloydPasses hsqrt hne hzeros iters).tail, fun hstop => ?_⟩
  refine ⟨fun i x hx => ?_, ?_⟩
  · have hfinal : final.2 ≠ [] := by
      rwa [← List.length_pos_iff, length_lloyd, List.length_pos_iff]
    obtain ⟨label, hlabel, hnearest⟩ := isNearest_assign hsqrt hfinal hx
    rw [assign_lloyd hstop] at hlabel
    exact ⟨label, hlabel, hnearest⟩
  · -- the loop did not stop in its first pass, so some pass left the final state
    have hpasses : passes ≠ [] :=
      lloydPasses_ne_nil (assign_ne_zeros hsqrt hk hnodup hC) (Nat.zero_lt_of_lt hstop)
    have hmem : final ∈ passes := by
      rw [hlast, List.getLastD_eq_getLast?, List.getLast?_eq_some_getLast hpasses,
        Option.getD_some]
      exact List.getLast_mem hpasses
    exact isCentred_of_mem_lloydPasses hne final hmem

/-- Three rows, of which the last two are the first centres. -/
theorem lloyd_descends_threeRows :
    let X : List (Fin 1 → ℝ) := [![0], ![1], ![5]]
    let C : List (Fin 1 → ℝ) := [![1], ![5]]
    let passes := lloydPasses Real.sqrt X 50 [0, 0, 0] C
    let final := lloyd Real.sqrt X 50 [0, 0, 0] C
    final = passes.getLastD ([0, 0, 0], C) ∧ passes.IsChain (Descends X) ∧
      (passes.length < 50 →
        (∀ (i : ℕ) (x : Fin 1 → ℝ), X[i]? = some x →
          ∃ label, final.1[i]? = some label ∧ IsNearest final.2 x label) ∧
        IsCentred X final) :=
  lloyd_descends isSqrt_real (by simp) (by simp) (by simp) 50

end Runs

end TradingSimulator.RegimeModel
