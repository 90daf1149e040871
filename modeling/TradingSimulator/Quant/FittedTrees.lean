import TradingSimulator.Library.SampleMoments
import TradingSimulator.Quant.ReturnPredictor
import Mathlib.Algebra.Order.Ring.Rat
import Mathlib.Algebra.Field.Rat
import Mathlib.Data.List.GetD

/-!
# Fitted trees

`_fit_tree` divides the samples by masks, `_pred_tree` compares one row with the thresholds
(`app/quant/return_predictor.py`). A sample takes the same path in both, so that a tree predicts for
it the mean of the samples that end where it ends (`fitTree_routesAsFitted`), and a forest predicts
nothing outside of the range of its targets (`predict_fit_mem_range`).
-/

namespace TradingSimulator.ReturnPredictor

open Series SampleMoments

/-! ### Paths in a tree -/

namespace Tree

variable {K : Type}

/-- The number of splits on a longest path. -/
def depth : Tree K → ℕ
  | leaf _ => 0
  | node _ _ L R => max L.depth R.depth + 1

/-- The leaves, each with the path to it, in which `true` is the step to the left. -/
def leaves : Tree K → List (List Bool × Option K)
  | leaf v => [([], v)]
  | node _ _ L R =>
    (L.leaves.map fun (path, v) => (true :: path, v)) ++
      R.leaves.map fun (path, v) => (false :: path, v)

variable [Field K] [LinearOrder K]

/-- The path of a row. -/
def route : Tree K → List K → List Bool
  | leaf _, _ => []
  | node f t L R, row => if row.getD f 0 ≤ t then true :: L.route row else false :: R.route row

/-- The samples among `idx` that reach the end of a path. -/
def reaching (T : Tree K) (X : List (List K)) (idx : List ℕ) (path : List Bool) : List ℕ :=
  idx.filter fun i => T.route (X.getD i []) = path

/-- A row ends in a leaf, and gets its value. -/
theorem route_mem_leaves (T : Tree K) (row : List K) :
    (T.route row, predTree T row) ∈ T.leaves := by
  induction T with
  | leaf v => exact List.mem_singleton.2 rfl
  | node f t L R ihL ihR =>
    rw [route, predTree, leaves, List.mem_append]
    split
    · exact Or.inl (List.mem_map_of_mem ihL)
    · exact Or.inr (List.mem_map_of_mem ihR)

/-- Rows on the same path get the same value. -/
theorem predTree_eq_of_route_eq {T : Tree K} {row row' : List K}
    (h : T.route row = T.route row') : predTree T row = predTree T row' := by
  induction T with
  | leaf v => rfl
  | node f t L R ihL ihR =>
    rw [route, route] at h
    rw [predTree, predTree]
    -- the first step of the route says on which side of the threshold a row is
    by_cases hrow : row.getD f 0 ≤ t <;> by_cases hrow' : row'.getD f 0 ≤ t
    · rw [if_pos hrow, if_pos hrow', List.cons.injEq] at h
      rw [if_pos hrow, if_pos hrow', ihL h.2]
    · rw [if_pos hrow, if_neg hrow', List.cons.injEq] at h
      exact absurd h.1 (by decide)
    · rw [if_neg hrow, if_pos hrow', List.cons.injEq] at h
      exact absurd h.1 (by decide)
    · rw [if_neg hrow, if_neg hrow', List.cons.injEq] at h
      rw [if_neg hrow, if_neg hrow', ihR h.2]

theorem reaching_leaf (v : Option K) (X : List (List K)) (idx : List ℕ) :
    (leaf v).reaching X idx [] = idx :=
  List.filter_eq_self.2 fun _ _ => decide_eq_true rfl

/-- Behind a step to the left are the samples that the mask keeps. -/
theorem reaching_node_left (f : ℕ) (t : K) (L R : Tree K) (X : List (List K)) (idx : List ℕ)
    (path : List Bool) :
    (node f t L R).reaching X idx (true :: path) =
      L.reaching X (idx.filter fun i => (X.getD i []).getD f 0 ≤ t) path := by
  rw [reaching, reaching, List.filter_filter]
  apply List.filter_congr
  intro i _
  rw [route]
  split <;> simp_all

/-- Behind a step to the right are the samples that the mask drops. -/
theorem reaching_node_right (f : ℕ) (t : K) (L R : Tree K) (X : List (List K)) (idx : List ℕ)
    (path : List Bool) :
    (node f t L R).reaching X idx (false :: path) =
      R.reaching X (idx.filter fun i => ¬ (X.getD i []).getD f 0 ≤ t) path := by
  rw [reaching, reaching, List.filter_filter]
  apply List.filter_congr
  intro i _
  rw [route]
  split <;> simp_all

end Tree

/-! ### What is fitted is what is predicted -/

section Fit

variable {σ K : Type} [Field K] [LinearOrder K]

/-- A tree that routes the samples `idx` as it was fitted to them. -/
structure RoutesAsFitted (minLeaf : ℕ) (X : List (List K)) (y : List K) (idx : List ℕ)
    (T : Tree K) : Prop where
  /-- A leaf below a split holds enough samples. -/
  minLeaf_le : ∀ leaf ∈ T.leaves, leaf.1 ≠ [] → minLeaf ≤ (T.reaching X idx leaf.1).length
  /-- A sample gets the mean of the samples that reach its leaf. -/
  predTree_eq : ∀ i ∈ idx, predTree T (X.getD i []) =
    some (mean ((T.reaching X idx (T.route (X.getD i []))).map fun j => y.getD j 0))

/-- A tree is a leaf with the mean of its samples, or a split into trees that are fitted to the two
sides, neither of which is too small. -/
theorem fitTree_cases (rng : Rng σ) (params : ForestParams) (P : ℕ) (X : List (List K)) (y : List K)
    (mf depth : ℕ) (idx : List ℕ) (st : FitState σ K) :
    (fitTree rng params P X y mf depth idx st).1 =
        .leaf (nanMean (idx.map fun i => y.getD i 0)) ∨
      ∃ rest bf bt stL stR,
        let li := idx.filter fun i => (X.getD i []).getD bf 0 ≤ bt
        let ri := idx.filter fun i => ¬ (X.getD i []).getD bf 0 ≤ bt
        depth = rest + 1 ∧ params.minLeaf ≤ li.length ∧ params.minLeaf ≤ ri.length ∧
          (fitTree rng params P X y mf depth idx st).1 =
            .node bf bt (fitTree rng params P X y mf rest li stL).1
              (fitTree rng params P X y mf rest ri stR).1 := by
  cases depth with
  | zero => exact Or.inl rfl
  | succ rest =>
    rw [fitTree]
    dsimp only
    -- a leaf for too few or equal targets, without a split, without a gain, and for a small side
    split
    · exact Or.inl rfl
    · split
      · exact Or.inl rfl
      · rename_i bf bt gain _
        split
        · exact Or.inl rfl
        · split
          · exact Or.inl rfl
          · rename_i hsmall
            rw [not_or, not_lt, not_lt] at hsmall
            exact Or.inr ⟨rest, bf, bt, _, _, rfl, hsmall.1, hsmall.2, rfl⟩

/-- `max_depth` bounds the depth of a tree. -/
theorem depth_fitTree_le (rng : Rng σ) (params : ForestParams) (P : ℕ) (X : List (List K))
    (y : List K) (mf depth : ℕ) (idx : List ℕ) (st : FitState σ K) :
    (fitTree rng params P X y mf depth idx st).1.depth ≤ depth := by
  induction depth generalizing idx st with
  | zero => exact le_rfl
  | succ rest ih =>
    obtain h | ⟨_, bf, bt, stL, stR, hrest, -, -, h⟩ :=
      fitTree_cases rng params P X y mf (rest + 1) idx st
    · rw [h]
      exact Nat.zero_le _
    · obtain rfl := Nat.succ.inj hrest
      rw [h, Tree.depth]
      exact Nat.succ_le_succ (max_le (ih _ stL) (ih _ stR))

omit [LinearOrder K] in
theorem nanMean_of_ne_nil {xs : List K} (hne : xs ≠ []) : nanMean xs = some (mean xs) := by
  cases xs with
  | nil => exact absurd rfl hne
  | cons x xs => rfl

/-- A leaf routes every sample to itself. -/
theorem routesAsFitted_leaf (minLeaf : ℕ) (X : List (List K)) (y : List K) (idx : List ℕ) :
    RoutesAsFitted minLeaf X y idx (.leaf (nanMean (idx.map fun i => y.getD i 0))) where
  minLeaf_le leaf hleaf hpath := by
    rw [Tree.leaves, List.mem_singleton] at hleaf
    exact absurd (congrArg Prod.fst hleaf) hpath
  predTree_eq i hi := by
    rw [predTree, Tree.route, Tree.reaching_leaf]
    exact nanMean_of_ne_nil (List.ne_nil_of_mem (List.mem_map_of_mem hi))

/-- All leaves of a tree hold enough samples when all samples together are enough. -/
theorem RoutesAsFitted.minLeaf_le_of_le {minLeaf : ℕ} {X : List (List K)} {y : List K}
    {idx : List ℕ} {T : Tree K} (h : RoutesAsFitted minLeaf X y idx T)
    (hidx : minLeaf ≤ idx.length) :
    ∀ leaf ∈ T.leaves, minLeaf ≤ (T.reaching X idx leaf.1).length := by
  intro leaf hleaf
  by_cases hpath : leaf.1 = []
  · -- only a tree that is one leaf has a leaf at its root
    cases T with
    | leaf v =>
      rw [hpath, Tree.reaching_leaf]
      exact hidx
    | node f t L R =>
      rw [Tree.leaves, List.mem_append, List.mem_map, List.mem_map] at hleaf
      obtain ⟨below, -, rfl⟩ | ⟨below, -, rfl⟩ := hleaf <;> cases hpath
  · exact h.minLeaf_le leaf hleaf hpath

/-- A split of large enough sides, each fitted to its samples, is fitted to all of them. -/
theorem routesAsFitted_node {minLeaf : ℕ} {X : List (List K)} {y : List K} {idx : List ℕ}
    {f : ℕ} {t : K} {L R : Tree K}
    (hL : RoutesAsFitted minLeaf X y (idx.filter fun i => (X.getD i []).getD f 0 ≤ t) L)
    (hR : RoutesAsFitted minLeaf X y (idx.filter fun i => ¬ (X.getD i []).getD f 0 ≤ t) R)
    (hli : minLeaf ≤ (idx.filter fun i => (X.getD i []).getD f 0 ≤ t).length)
    (hri : minLeaf ≤ (idx.filter fun i => ¬ (X.getD i []).getD f 0 ≤ t).length) :
    RoutesAsFitted minLeaf X y idx (.node f t L R) where
  minLeaf_le leaf hleaf _ := by
    rw [Tree.leaves, List.mem_append, List.mem_map, List.mem_map] at hleaf
    obtain ⟨below, hbelow, rfl⟩ | ⟨below, hbelow, rfl⟩ := hleaf
    · rw [Tree.reaching_node_left]
      exact hL.minLeaf_le_of_le hli below hbelow
    · rw [Tree.reaching_node_right]
      exact hR.minLeaf_le_of_le hri below hbelow
  predTree_eq i hi := by
    rw [predTree, Tree.route]
    -- the mask and the comparison are the same test on the same row
    by_cases hmask : (X.getD i []).getD f 0 ≤ t
    · rw [if_pos hmask, if_pos hmask, Tree.reaching_node_left]
      exact hL.predTree_eq i (List.mem_filter.2 ⟨hi, decide_eq_true hmask⟩)
    · rw [if_neg hmask, if_neg hmask, Tree.reaching_node_right]
      exact hR.predTree_eq i (List.mem_filter.2 ⟨hi, decide_eq_true hmask⟩)

/-- `_pred_tree` follows `_fit_tree`. -/
theorem fitTree_routesAsFitted (rng : Rng σ) (params : ForestParams) (P : ℕ) (X : List (List K))
    (y : List K) (mf depth : ℕ) (idx : List ℕ) (st : FitState σ K) :
    RoutesAsFitted params.minLeaf X y idx (fitTree rng params P X y mf depth idx st).1 := by
  induction depth generalizing idx st with
  | zero => exact routesAsFitted_leaf _ X y idx
  | succ rest ih =>
    obtain h | ⟨_, bf, bt, stL, stR, hrest, hli, hri, h⟩ :=
      fitTree_cases rng params P X y mf (rest + 1) idx st
    · rw [h]
      exact routesAsFitted_leaf _ X y idx
    · obtain rfl := Nat.succ.inj hrest
      rw [h]
      exact routesAsFitted_node (ih _ stL) (ih _ stR) hli hri

end Fit

/-! ### The range of a forest -/

section Range

variable {σ K : Type} [Field K] [LinearOrder K] [IsStrictOrderedRing K]

/-- `integers(0, high, size)` returns `size` numbers below `high`. -/
def Rng.IntegersInRange (rng : Rng σ) : Prop :=
  ∀ s high size, 0 < high → (rng.integers s high size).1.length = size ∧
    ∀ i ∈ (rng.integers s high size).1, i < high

/-- A tree that routes its samples as fitted predicts in their range: the leaf of any row holds a
sample, and the mean that the sample gets is in the range. -/
theorem RoutesAsFitted.predTree_mem_range {minLeaf : ℕ} {X : List (List K)} {y : List K}
    {idx : List ℕ} {T : Tree K} (h : RoutesAsFitted minLeaf X y idx T) (hleaf : 1 ≤ minLeaf)
    (hidx : idx ≠ []) {lo hi : K} (hy : ∀ i ∈ idx, lo ≤ y.getD i 0 ∧ y.getD i 0 ≤ hi)
    (row : List K) : ∃ v, predTree T row = some v ∧ lo ≤ v ∧ v ≤ hi := by
  have hone : RoutesAsFitted 1 X y idx T :=
    { h with minLeaf_le := fun leaf hmem hpath => hleaf.trans (h.minLeaf_le leaf hmem hpath) }
  have hreach : T.reaching X idx (T.route row) ≠ [] :=
    List.ne_nil_of_length_pos (hone.minLeaf_le_of_le (List.length_pos_of_ne_nil hidx) _
      (T.route_mem_leaves row))
  obtain ⟨i, hmem⟩ := List.exists_mem_of_ne_nil _ hreach
  -- a sample that ends where the row ends is given the same prediction
  have hroute : T.route (X.getD i []) = T.route row :=
    of_decide_eq_true (List.mem_filter.1 hmem).2
  have hrange : ∀ v ∈ (T.reaching X idx (T.route row)).map fun j => y.getD j 0,
      lo ≤ v ∧ v ≤ hi := by
    rw [List.forall_mem_map]
    exact fun j hj => hy j (List.mem_filter.1 hj).1
  have hne : ((T.reaching X idx (T.route row)).map fun j => y.getD j 0) ≠ [] :=
    fun hnil => hreach (List.map_eq_nil_iff.1 hnil)
  refine ⟨_, ?_, le_mean hne fun v hv => (hrange v hv).1, mean_le hne fun v hv => (hrange v hv).2⟩
  rw [← Tree.predTree_eq_of_route_eq hroute, h.predTree_eq i (List.mem_filter.1 hmem).1, hroute]

/-- A tree that is fitted to samples of the training set, as many as it has rows. -/
def GrownFrom (rng : Rng σ) (params : ForestParams) (P : ℕ) (X : List (List K)) (y : List K)
    (T : Tree K) : Prop :=
  ∃ boot st, boot.length = X.length ∧ (∀ i ∈ boot, i < X.length) ∧
    T = (fitTree rng params P X y (max 1 (P / 3)) params.maxDepth boot st).1

omit [IsStrictOrderedRing K] in
/-- A forest has `n_estimators` trees, each fitted to samples of the training set. -/
theorem fit_trees {rng : Rng σ} (hrng : rng.IntegersInRange) (params : ForestParams) (P : ℕ)
    {X : List (List K)} (hX : X ≠ []) (y : List K) :
    (fit rng params P X y).trees.length = params.nEstimators ∧
      ∀ T ∈ (fit rng params P X y).trees, GrownFrom rng params P X y T := by
  -- one round of the loop over the estimators
  let grow : FitState σ K → Tree K × FitState σ K := fun st =>
    let draw := rng.integers st.rng X.length X.length
    fitTree rng params P X y (max 1 (P / 3)) params.maxDepth draw.1 { st with rng := draw.2 }
  have hgrow : ∀ st, GrownFrom rng params P X y (grow st).1 := by
    intro st
    obtain ⟨hlength, hlt⟩ := hrng st.rng X.length X.length (List.length_pos_of_ne_nil hX)
    exact ⟨_, _, hlength, hlt, rfl⟩
  let start : FitState σ K := { rng := rng.defaultRng params.seed, imp := List.replicate P 0 }
  obtain ⟨hcount, htrees⟩ := foldl_append_spec hgrow (List.range params.nEstimators)
    ([], start) (by simp)
  rw [List.length_range, List.length_nil, Nat.zero_add] at hcount
  exact ⟨hcount, htrees⟩

omit [IsStrictOrderedRing K] in
/-- Trees that all predict in a range have their predictions in it. -/
theorem mapM_predTree_mem_range {lo hi : K} {row : List K} (trees : List (Tree K))
    (h : ∀ T ∈ trees, ∃ v, predTree T row = some v ∧ lo ≤ v ∧ v ≤ hi) :
    ∃ vs : List K, (trees.mapM fun T => predTree T row) = some vs ∧ vs.length = trees.length ∧
      ∀ v ∈ vs, lo ≤ v ∧ v ≤ hi := by
  induction trees with
  | nil => exact ⟨[], rfl, rfl, by simp⟩
  | cons T trees ih =>
    rw [List.forall_mem_cons] at h
    obtain ⟨v, hv, hrange⟩ := h.1
    obtain ⟨vs, hvs, hlength, hranges⟩ := ih h.2
    refine ⟨v :: vs, ?_, congrArg Nat.succ hlength, List.forall_mem_cons.2 ⟨hrange, hranges⟩⟩
    rw [List.mapM_cons, hv, hvs]
    rfl

/-- The mean over the trees of a forest is in the range of their predictions. -/
theorem predict_mem_range {forest : Forest K} (hne : forest.trees ≠ []) {lo hi : K} {row : List K}
    (h : ∀ T ∈ forest.trees, ∃ v, predTree T row = some v ∧ lo ≤ v ∧ v ≤ hi) :
    ∃ v, predict forest [row] = [some v] ∧ lo ≤ v ∧ v ≤ hi := by
  obtain ⟨vs, hvs, hlength, hranges⟩ := mapM_predTree_mem_range forest.trees h
  have hvs_ne : vs ≠ [] := by
    rintro rfl
    exact hne (List.length_eq_zero_iff.1 hlength.symm)
  refine ⟨mean vs, ?_, le_mean hvs_ne fun v hv => (hranges v hv).1,
    mean_le hvs_ne fun v hv => (hranges v hv).2⟩
  rw [predict, List.map_singleton, hvs, Option.bind_some, nanMean_of_ne_nil hvs_ne]

/-- What `_fit_tree` builds is at most `max_depth` deep and routes its samples as it was fitted to
them; the forest predicts in the range of the training targets, whatever the row. -/
theorem fitTree_routes_predict_mem_range {rng : Rng σ} (hrng : rng.IntegersInRange)
    (params : ForestParams) (hleaf : 1 ≤ params.minLeaf) (hn : 1 ≤ params.nEstimators) (P : ℕ)
    (X : List (List K)) (y : List K) (hX : X ≠ []) (hlength : y.length = X.length) :
    (∀ (mf : ℕ) (idx : List ℕ) (st : FitState σ K),
      (fitTree rng params P X y mf params.maxDepth idx st).1.depth ≤ params.maxDepth ∧
        RoutesAsFitted params.minLeaf X y idx
          (fitTree rng params P X y mf params.maxDepth idx st).1) ∧
      ∀ lo hi, (∀ target ∈ y, lo ≤ target ∧ target ≤ hi) →
        ∀ row, ∃ v, predict (fit rng params P X y) [row] = [some v] ∧ lo ≤ v ∧ v ≤ hi := by
  refine ⟨fun mf idx st => ⟨depth_fitTree_le rng params P X y mf _ idx st,
    fitTree_routesAsFitted rng params P X y mf _ idx st⟩, fun lo hi hy row => ?_⟩
  obtain ⟨hcount, htrees⟩ := fit_trees hrng params P hX y
  apply predict_mem_range
  · exact List.ne_nil_of_length_pos (hcount ▸ hn)
  · intro T hT
    obtain ⟨boot, st, hboot, hlt, rfl⟩ := htrees T hT
    have hboot_ne : boot ≠ [] :=
      List.ne_nil_of_length_pos (hboot ▸ List.length_pos_of_ne_nil hX)
    -- the rows that were drawn have targets of the training set
    have htargets : ∀ i ∈ boot, lo ≤ y.getD i 0 ∧ y.getD i 0 ≤ hi := by
      intro i hi
      have hi' : i < y.length := hlength ▸ hlt i hi
      rw [List.getD_eq_getElem _ _ hi']
      exact hy _ (List.getElem_mem hi')
    exact (fitTree_routesAsFitted rng params P X y _ _ boot st).predTree_mem_range hleaf hboot_ne
      htargets row

/-- The draws run through the rows one after the other. -/
def inTurn : Rng ℕ where
  defaultRng seed := seed
  integers s high size := ((List.range size).map fun i => (s + i) % high, s + size)
  choice s _ size := (List.range size, s)

/-- The draws in turn are in the range. -/
theorem inTurn_integersInRange : inTurn.IntegersInRange := by
  intro s high size hhigh
  refine ⟨by simp [inTurn], ?_⟩
  simp only [inTurn, List.forall_mem_map]
  exact fun i _ => Nat.mod_lt _ hhigh

/-- A forest on four rows that rise in steps. -/
theorem fitTree_routes_predict_mem_range_steps :
    let params : ForestParams :=
      { nEstimators := 20, maxDepth := 2, minSplit := 2, minLeaf := 1, seed := 42 }
    let X : List (List ℚ) := [[1], [2], [2], [3]]
    let y : List ℚ := [-1, 0, 1, 2]
    (∀ (mf : ℕ) (idx : List ℕ) (st : FitState ℕ ℚ),
      (fitTree inTurn params 1 X y mf 2 idx st).1.depth ≤ 2 ∧
        RoutesAsFitted 1 X y idx (fitTree inTurn params 1 X y mf 2 idx st).1) ∧
      ∀ lo hi, (∀ target ∈ y, lo ≤ target ∧ target ≤ hi) →
        ∀ row, ∃ v, predict (fit inTurn params 1 X y) [row] = [some v] ∧ lo ≤ v ∧ v ≤ hi := by
  dsimp only
  exact fitTree_routes_predict_mem_range inTurn_integersInRange _ (by decide) (by decide) 1 _ _
    (by decide) rfl

end Range

end TradingSimulator.ReturnPredictor
