import TradingSimulator.Library.Tallies
import TradingSimulator.Quant.BestSplit
import TradingSimulator.Quant.FittedTrees

/-!
# Feature importances

`_fit_tree` (`app/quant/return_predictor.py`) adds the gain of a split to the importance of its
feature before it looks at the sizes of the two sides. The sides of a split that `_best_split` finds
are never too small, so that every gain belongs to a split of the tree. The gains of a tree add up
to what its leaves take away from the squared error of its rows, and the importances of a forest are
the shares of its features in all gains (`importances_telescope`).
-/

namespace TradingSimulator.ReturnPredictor

open Series ThresholdSplits Tallies

/-! ### The gains of a tree -/

namespace Tree

variable {K : Type} [Field K] [LinearOrder K]

/-- The splits of a tree, each with the gain on the rows that reach it. -/
def splitGains (X : List (List K)) (y : List K) : Tree K → List ℕ → List (ℕ × K)
  | leaf _, _ => []
  | node f t L R, idx =>
    (f, splitGain X y idx f t) ::
      (L.splitGains X y (idx.filter fun i => feature X f i ≤ t) ++
        R.splitGains X y (idx.filter fun i => ¬ feature X f i ≤ t))

/-- The squared errors that are left in the leaves. -/
def leafErrors (X : List (List K)) (y : List K) (T : Tree K) (idx : List ℕ) : K :=
  (T.leaves.map fun leaf => sse ((T.reaching X idx leaf.1).map fun i => y.getD i 0)).sum

variable (X : List (List K)) (y : List K)

theorem leafErrors_leaf (v : Option K) (idx : List ℕ) :
    (leaf v).leafErrors X y idx = sse (idx.map fun i => y.getD i 0) := by
  rw [leafErrors, leaves, List.map_singleton, List.sum_singleton, reaching_leaf]

/-- The errors below a node are those of the rows that it sends to either side. -/
theorem leafErrors_node (f : ℕ) (t : K) (L R : Tree K) (idx : List ℕ) :
    (node f t L R).leafErrors X y idx =
      L.leafErrors X y (idx.filter fun i => feature X f i ≤ t) +
        R.leafErrors X y (idx.filter fun i => ¬ feature X f i ≤ t) := by
  simp only [leafErrors, leaves, List.map_append, List.map_map, List.sum_append]
  -- the rows of a leaf of one side are those that reach it from the rows of the side
  congr 2
  · apply List.map_congr_left
    intro leaf _
    exact congrArg (fun rows : List ℕ => sse (rows.map fun i => y.getD i 0))
      (reaching_node_left f t L R X idx leaf.1)
  · apply List.map_congr_left
    intro leaf _
    exact congrArg (fun rows : List ℕ => sse (rows.map fun i => y.getD i 0))
      (reaching_node_right f t L R X idx leaf.1)

/-- The gains telescope: together they take the squared error of the rows down to that of the
leaves. -/
theorem sum_splitGains (T : Tree K) (idx : List ℕ) :
    ((T.splitGains X y idx).map Prod.snd).sum =
      sse (idx.map fun i => y.getD i 0) - T.leafErrors X y idx := by
  induction T generalizing idx with
  | leaf v =>
    rw [splitGains, List.map_nil, List.sum_nil, leafErrors_leaf, sub_self]
  | node f t L R ihL ihR =>
    rw [splitGains, List.map_cons, List.sum_cons, List.map_append, List.sum_append, ihL, ihR,
      leafErrors_node, splitGain, leftLabels, rightLabels]
    ring

/-- A tree credits something when it has a split. -/
theorem splitGains_ne_nil_iff (T : Tree K) (idx : List ℕ) :
    T.splitGains X y idx ≠ [] ↔ 0 < T.depth := by
  cases T with
  | leaf v => exact iff_of_false (fun h => h rfl) (lt_irrefl 0)
  | node f t L R => exact iff_of_true (List.cons_ne_nil _ _) (Nat.succ_pos _)

end Tree

/-! ### What the construction of a tree credits -/

section Credits

variable {σ K : Type} [Field K] [LinearOrder K] [IsStrictOrderedRing K]

/-- What `choice` returns are indices below its bound. -/
def Rng.ChoiceInRange (rng : Rng σ) : Prop :=
  ∀ s n size, ∀ i ∈ (rng.choice s n size).1, i < n

/-- A tree is a leaf that credits nothing, or a split that credits its gain and then what the trees
of its two sides credit. No gain is credited without its split. -/
theorem fitTree_step (rng : Rng σ) {params : ForestParams} (hleaf : 1 ≤ params.minLeaf) (P : ℕ)
    (X : List (List K)) (y : List K) (mf depth : ℕ) (idx : List ℕ) (st : FitState σ K) :
    (∃ v, (fitTree rng params P X y mf depth idx st).1 = .leaf v ∧
        (fitTree rng params P X y mf depth idx st).2.imp = st.imp) ∨
      ∃ rest f t draws,
        let left := fitTree rng params P X y mf rest (idx.filter fun i => feature X f i ≤ t)
          { rng := draws, imp := st.imp.modify f fun total => total + splitGain X y idx f t }
        let right := fitTree rng params P X y mf rest (idx.filter fun i => ¬ feature X f i ≤ t)
          left.2
        depth = rest + 1 ∧ f ∈ (rng.choice st.rng P mf).1 ∧ 0 < splitGain X y idx f t ∧
          fitTree rng params P X y mf depth idx st = (.node f t left.1 right.1, right.2) := by
  cases depth with
  | zero => exact Or.inl ⟨_, rfl, rfl⟩
  | succ rest =>
    have hbest := (isBestSplit_bestSplit X y idx (rng.choice st.rng P mf).1 hleaf).gain_eq
    rw [fitTree]
    dsimp only
    -- a leaf before the search, a leaf after a search without a gain, or a split
    split
    · exact Or.inl ⟨_, rfl, rfl⟩
    · split
      · exact Or.inl ⟨_, rfl, rfl⟩
      · rename_i f t gain hsplit
        rw [hsplit] at hbest
        obtain ⟨hpos, hf, hadmissible, heq⟩ := hbest
        dsimp only at hpos heq
        -- the split is admissible, so neither side is too small
        have hsides : ¬ ((idx.filter fun i => (X.getD i []).getD f 0 ≤ t).length < params.minLeaf ∨
            (idx.filter fun i => ¬ (X.getD i []).getD f 0 ≤ t).length < params.minLeaf) :=
          not_or.mpr ⟨not_lt.mpr hadmissible.left, not_lt.mpr hadmissible.right⟩
        rw [if_neg (not_le.mpr hpos), if_neg hsides]
        subst heq
        exact Or.inr ⟨rest, f, t, _, rfl, hf, hpos, rfl⟩

/-- The importances that a tree leaves are those before it with the gains of its splits, each
positive and at a feature. -/
theorem imp_fitTree {rng : Rng σ} (hrng : rng.ChoiceInRange) {params : ForestParams}
    (hleaf : 1 ≤ params.minLeaf) (P : ℕ) (X : List (List K)) (y : List K) (mf depth : ℕ)
    (idx : List ℕ) (st : FitState σ K) :
    let result := fitTree rng params P X y mf depth idx st
    result.2.imp = credit st.imp (result.1.splitGains X y idx) ∧
      ∀ entry ∈ result.1.splitGains X y idx, entry.1 < P ∧ 0 < entry.2 := by
  induction depth generalizing idx st with
  | zero => exact ⟨rfl, fun entry hentry => absurd hentry List.not_mem_nil⟩
  | succ depth ih =>
    obtain ⟨v, htree, himp⟩ | ⟨rest, f, t, draws, hdepth, hf, hpos, hresult⟩ :=
      fitTree_step rng hleaf P X y mf (depth + 1) idx st
    · dsimp only
      rw [htree, himp]
      exact ⟨rfl, fun entry hentry => absurd hentry List.not_mem_nil⟩
    -- the right side starts from the importances that the left side leaves
    · obtain rfl := Nat.succ.inj hdepth
      dsimp only at hresult ⊢
      rw [hresult]
      obtain ⟨hleft, hleftGains⟩ := ih (idx.filter fun i => feature X f i ≤ t)
        { rng := draws, imp := st.imp.modify f fun total => total + splitGain X y idx f t }
      obtain ⟨hright, hrightGains⟩ := ih (idx.filter fun i => ¬ feature X f i ≤ t) _
      refine ⟨?_, ?_⟩
      · rw [hright, hleft, Tree.splitGains, credit_cons, credit_append]
      · rw [Tree.splitGains, List.forall_mem_cons, List.forall_mem_append]
        exact ⟨⟨hrng _ _ _ f hf, hpos⟩, hleftGains, hrightGains⟩

/-- The importances that some trees leave: one for each feature, none of them negative, and more
than zero together exactly when some tree has a split. -/
structure CreditedBy (P : ℕ) (trees : List (Tree K)) (imp : List K) : Prop where
  length_eq : imp.length = P
  nonneg : ∀ total ∈ imp, 0 ≤ total
  sum_pos_iff : 0 < imp.sum ↔ ∃ T ∈ trees, 0 < T.depth

omit [IsStrictOrderedRing K] in
theorem creditedBy_start (P : ℕ) : CreditedBy P [] (List.replicate P (0 : K)) where
  length_eq := List.length_replicate
  nonneg := fun total htotal => (List.eq_of_mem_replicate htotal).ge
  sum_pos_iff := by simp

/-- One more tree. -/
theorem CreditedBy.fitTree {rng : Rng σ} (hrng : rng.ChoiceInRange) {params : ForestParams}
    (hleaf : 1 ≤ params.minLeaf) {P : ℕ} {trees : List (Tree K)} {st : FitState σ K}
    (h : CreditedBy P trees st.imp) (X : List (List K)) (y : List K) (mf depth : ℕ)
    (idx : List ℕ) (draws : σ) :
    let result := ReturnPredictor.fitTree rng params P X y mf depth idx { st with rng := draws }
    CreditedBy P (trees ++ [result.1]) result.2.imp := by
  intro result
  obtain ⟨himp, hgains⟩ :=
    imp_fitTree hrng hleaf P X y mf depth idx { st with rng := draws }
  -- every gain is credited to a feature of its own place in the vector
  have hsum : result.2.imp.sum =
      st.imp.sum + ((result.1.splitGains X y idx).map Prod.snd).sum := by
    rw [himp, sum_credit]
    exact fun entry hentry => h.length_eq ▸ (hgains entry hentry).1
  have hnonneg : ∀ gain ∈ (result.1.splitGains X y idx).map Prod.snd, 0 ≤ gain := by
    rw [List.forall_mem_map]
    exact fun entry hentry => (hgains entry hentry).2.le
  constructor
  · rw [himp, length_credit, h.length_eq]
  · rw [himp]
    exact credit_nonneg h.nonneg fun entry hentry => (hgains entry hentry).2.le
  · have hold : 0 ≤ st.imp.sum := List.sum_nonneg h.nonneg
    rw [hsum]
    by_cases hdepth : 0 < result.1.depth
    · -- a split has a positive gain
      have hpos : 0 < ((result.1.splitGains X y idx).map Prod.snd).sum := by
        apply List.sum_pos
        · rw [List.forall_mem_map]
          exact fun entry hentry => (hgains entry hentry).2
        · rw [ne_eq, List.map_eq_nil_iff]
          exact (Tree.splitGains_ne_nil_iff X y _ idx).mpr hdepth
      refine iff_of_true (add_pos_of_nonneg_of_pos hold hpos) ⟨result.1, ?_, hdepth⟩
      exact List.mem_append_right _ (List.mem_singleton.mpr rfl)
    -- without a split nothing is added
    · have hnil : result.1.splitGains X y idx = [] := by
        by_contra hne
        exact hdepth ((Tree.splitGains_ne_nil_iff X y _ idx).mp hne)
      rw [hnil, List.map_nil, List.sum_nil, add_zero, h.sum_pos_iff]
      simp [hdepth]

/-- The importances before they are normalised. -/
theorem creditedBy_fit {rng : Rng σ} (hrng : rng.ChoiceInRange) {params : ForestParams}
    (hleaf : 1 ≤ params.minLeaf) (P : ℕ) (X : List (List K)) (y : List K) :
    ∃ imp : List K, CreditedBy P (fit rng params P X y).trees imp ∧
      (fit rng params P X y).importances =
        if 0 < imp.sum then imp.map fun total => total / imp.sum else imp := by
  refine ⟨_, ?_, rfl⟩
  -- the loop over the trees keeps what the trees so far have credited
  apply Runs.foldl_invariant (A := fun _ => True)
    (J := fun acc : List (Tree K) × FitState σ K => CreditedBy P acc.1 acc.2.imp)
  · intro acc _ _ hacc
    exact hacc.fitTree hrng hleaf X y _ _ _ _
  · exact creditedBy_start P
  · exact fun _ _ => trivial

/-- Totals that are not negative, as shares of their sum where it is positive. -/
theorem CreditedBy.shares {P : ℕ} {trees : List (Tree K)} {imp : List K}
    (h : CreditedBy P trees imp) :
    let shares := if 0 < imp.sum then imp.map fun total => total / imp.sum else imp
    (∀ share ∈ shares, 0 ≤ share) ∧ ((∃ T ∈ trees, 0 < T.depth) → shares.sum = 1) ∧
      ((∀ T ∈ trees, T.depth = 0) → ∀ share ∈ shares, share = 0) := by
  intro shares
  by_cases hpos : 0 < imp.sum
  · have hshares : shares = imp.map fun total => total / imp.sum := if_pos hpos
    rw [hshares]
    refine ⟨?_, fun _ => ?_, fun hdepth => ?_⟩
    · rw [List.forall_mem_map]
      exact fun total htotal => div_nonneg (h.nonneg total htotal) hpos.le
    · simp only [div_eq_mul_inv]
      rw [List.sum_map_mul_right, List.map_id', mul_inv_cancel₀ hpos.ne']
    · obtain ⟨T, hT, hsplit⟩ := h.sum_pos_iff.mp hpos
      exact absurd (hdepth T hT) hsplit.ne'
  · have hshares : shares = imp := if_neg hpos
    rw [hshares]
    refine ⟨h.nonneg, fun hsplit => absurd (h.sum_pos_iff.mpr hsplit) hpos, fun _ => ?_⟩
    -- none is negative, so none is positive either
    have hzero : imp.sum = 0 := le_antisymm (not_lt.mp hpos) (List.sum_nonneg h.nonneg)
    exact fun share hshare => List.all_zero_of_le_zero_le_of_sum_eq_zero h.nonneg hzero hshare

/-- What a tree adds to the importances are the positive gains of its splits, together the squared
error of its rows less that of its leaves. The importances of a forest are not negative, and they
sum to one unless no tree has a split, where all of them are zero. -/
theorem importances_telescope {rng : Rng σ} (hrng : rng.ChoiceInRange) {params : ForestParams}
    (hleaf : 1 ≤ params.minLeaf) (P : ℕ) (X : List (List K)) (y : List K) :
    (∀ (mf depth : ℕ) (idx : List ℕ) (st : FitState σ K), st.imp.length = P →
      let result := fitTree rng params P X y mf depth idx st
      let gains := result.1.splitGains X y idx
      result.2.imp = credit st.imp gains ∧ (∀ entry ∈ gains, entry.1 < P ∧ 0 < entry.2) ∧
        result.2.imp.sum - st.imp.sum =
          sse (idx.map fun i => y.getD i 0) - result.1.leafErrors X y idx) ∧
      let forest := fit rng params P X y
      (∀ share ∈ forest.importances, 0 ≤ share) ∧
        ((∃ T ∈ forest.trees, 0 < T.depth) → forest.importances.sum = 1) ∧
        ((∀ T ∈ forest.trees, T.depth = 0) → ∀ share ∈ forest.importances, share = 0) := by
  constructor
  · intro mf depth idx st hlength result gains
    obtain ⟨himp, hgains⟩ := imp_fitTree hrng hleaf P X y mf depth idx st
    refine ⟨himp, hgains, ?_⟩
    rw [himp, sum_credit fun entry hentry => hlength ▸ (hgains entry hentry).1,
      add_sub_cancel_left]
    exact Tree.sum_splitGains X y _ idx
  · obtain ⟨imp, hcredited, himportances⟩ := creditedBy_fit hrng hleaf P X y
    dsimp only
    rw [himportances]
    exact hcredited.shares

/-- The draws of rows in turn, with the first columns as the features. -/
def firstColumns : Rng ℕ := { inTurn with choice := fun s n size => (List.range (min n size), s) }

theorem choiceInRange_firstColumns : firstColumns.ChoiceInRange := by
  intro s n size i hi
  exact (List.mem_range.mp hi).trans_le (min_le_left n size)

/-- A forest on four rows that rise in steps. -/
theorem importances_telescope_steps :
    let params : ForestParams :=
      { nEstimators := 20, maxDepth := 2, minSplit := 2, minLeaf := 1, seed := 42 }
    let X : List (List ℚ) := [[1], [2], [2], [3]]
    let y : List ℚ := [-1, 0, 1, 2]
    (∀ (mf depth : ℕ) (idx : List ℕ) (st : FitState ℕ ℚ), st.imp.length = 1 →
      let result := fitTree firstColumns params 1 X y mf depth idx st
      let gains := result.1.splitGains X y idx
      result.2.imp = credit st.imp gains ∧ (∀ entry ∈ gains, entry.1 < 1 ∧ 0 < entry.2) ∧
        result.2.imp.sum - st.imp.sum =
          sse (idx.map fun i => y.getD i 0) - result.1.leafErrors X y idx) ∧
      let forest := fit firstColumns params 1 X y
      (∀ share ∈ forest.importances, 0 ≤ share) ∧
        ((∃ T ∈ forest.trees, 0 < T.depth) → forest.importances.sum = 1) ∧
        ((∀ T ∈ forest.trees, T.depth = 0) → ∀ share ∈ forest.importances, share = 0) := by
  dsimp only
  exact importances_telescope choiceInRange_firstColumns (by decide) 1 _ _

end Credits

end TradingSimulator.ReturnPredictor
