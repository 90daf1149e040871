import Mathlib.Data.Finset.Dedup
import Mathlib.Data.Finset.Sort
import Mathlib.Data.Fintype.Basic
import Mathlib.Data.List.TakeWhile
import Mathlib.Data.Rat.Sqrt
import TradingSimulator.Library.Series
import TradingSimulator.Library.Transitions
import TradingSimulator.Quant.RegimeModel

/-!
# Names and summary of the regimes

`detect_regimes` (`app/quant/regime/regime_model.py`) names the clusters of the bars, whatever has
found them, in the order of their mean trends, and `analyze_regime` summarises the names: the run of
the current regime, how often each occurs, and the transition matrix.

The names never raise where the clusters are found, and a regime that stands higher has a mean trend
that is not lower (`detectRegimes_spec`). The rows of the transition matrix sum to one, and the
counts of the regimes are stationary under it, up to the last and the first bar (`summarize_spec`).
-/

namespace TradingSimulator.RegimeModel

/-- `REGIME_LABELS` as a type. -/
inductive Regime where
  | bull
  | bear
  | sideways
  deriving DecidableEq

/-- `REGIME_LABELS`. -/
def REGIME_LABELS : List Regime := [.bull, .bear, .sideways]

instance : Fintype Regime where
  elems := ⟨REGIME_LABELS, by decide⟩
  complete regime := by rcases regime <;> decide

/-- How high a regime stands. -/
def Regime.rank : Regime → ℕ
  | .bull => 2
  | .sideways => 1
  | .bear => 0

variable {K : Type} [Field K]

/-! ### Names -/

/-- `xs[labels == k].mean()`. -/
def meanOf {κ : Type} [DecidableEq κ] (labels : List κ) (xs : List K) (k : κ) : K :=
  Series.mean (((labels.zip xs).filter fun bar => bar.1 = k).map Prod.snd)

/-- The clusters in `np.unique` order, sorted by mean trend from the highest on; clusters with equal
means keep their order. -/
def ordered [LinearOrder K] (raw : List ℕ) (trend : List K) : List ℕ :=
  (raw.toFinset.sort).mergeSort fun c c' => decide (meanOf raw trend c' ≤ meanOf raw trend c)

/-- `mapping`. Without a cluster the first one is asked for in vain. -/
def mapping : List ℕ → Option (List (ℕ × Regime))
  | [first, second, third] => some [(first, .bull), (second, .sideways), (third, .bear)]
  | [first, second] => some [(first, .bull), (second, .bear)]
  | first :: _ => some [(first, .sideways)]
  | [] => none

/-- The names of the bars, given their clusters. A cluster that is not in the mapping is a
`KeyError`. -/
def nameRegimes [LinearOrder K] (raw : List ℕ) (trend : List K) : Option (List Regime) := do
  let names ← mapping (ordered raw trend)
  raw.mapM fun c => names.lookup c

/-- The clusters of the bars: those of scikit-learn and, where it raises, those of the fallback. -/
def rawClusters [LinearOrder K] (sqrt : K → K)
    (fitPredict : List (Fin 3 → K) → ℕ → ℤ → Option (List ℕ)) (rng : Generator K)
    (X : List (Fin 3 → K)) (seed : ℤ) : Option (List ℕ) :=
  (fitPredict (standardize sqrt X) (if 3 ≤ X.length then 3 else 1) seed).or
    (detectRaw sqrt rng X seed)

/-- `detect_regimes` of the columns trend, volatility and momentum. -/
def detectRegimes [LinearOrder K] (sqrt : K → K)
    (fitPredict : List (Fin 3 → K) → ℕ → ℤ → Option (List ℕ)) (rng : Generator K)
    (X : List (Fin 3 → K)) (seed : ℤ := 42) : Option (List Regime) := do
  let raw ← rawClusters sqrt fitPredict rng X seed
  nameRegimes raw (X.map fun x => x 0)

/-- Where every bar of a list is renamed by a function that keeps its clusters apart, the bars of a
name are those of its cluster. -/
theorem meanOf_map {κ ν : Type} [DecidableEq κ] [DecidableEq ν] {labels : List κ} {name : κ → ν}
    (hname : ∀ c ∈ labels, ∀ c' ∈ labels, name c = name c' → c = c') {c : κ} (hc : c ∈ labels)
    (xs : List K) : meanOf (labels.map name) xs (name c) = meanOf labels xs c := by
  have hfilter : ((labels.map name).zip xs).filter (fun bar => bar.1 = name c) =
      ((labels.zip xs).filter fun bar => bar.1 = c).map (Prod.map name id) := by
    rw [List.zip_map_left, List.filter_map]
    refine congrArg (List.map _) (List.filter_congr fun bar hbar => ?_)
    have hmem : bar.1 ∈ labels := (List.of_mem_zip hbar).1
    simp only [Function.comp_apply, Prod.map_fst, decide_eq_decide]
    exact ⟨hname bar.1 hmem c hc, congrArg name⟩
  rw [meanOf, hfilter, List.map_map]
  rfl

section Naming

variable [LinearOrder K] {raw : List ℕ} {trend : List K}

theorem mem_ordered {c : ℕ} : c ∈ ordered raw trend ↔ c ∈ raw := by
  simp [ordered]

theorem nodup_ordered : (ordered raw trend).Nodup :=
  (List.mergeSort_perm _ _).nodup_iff.mpr (Finset.sort_nodup _ _)

/-- The clusters come with mean trends that do not rise. -/
theorem pairwise_ordered :
    (ordered raw trend).Pairwise fun c c' => meanOf raw trend c' ≤ meanOf raw trend c := by
  have hsorted : (ordered raw trend).Pairwise fun c c' =>
      decide (meanOf raw trend c' ≤ meanOf raw trend c) = true := by
    apply List.pairwise_mergeSort
    · intro a b c hab hbc
      rw [decide_eq_true_eq] at hab hbc ⊢
      exact hbc.trans hab
    · intro a b
      simpa using le_total (meanOf raw trend b) (meanOf raw trend a)
  simpa only [decide_eq_true_eq] using hsorted

/-- The names of at most three clusters: each has its own, in the order of the mean trends. A single
cluster is sideways. -/
theorem exists_mapping (hraw : raw ≠ []) (hclusters : ∀ c ∈ raw, c < 3) (trend : List K) :
    ∃ names, mapping (ordered raw trend) = some names ∧ ∃ name : ℕ → Regime,
      (∀ c ∈ raw, names.lookup c = some (name c)) ∧
      (∀ c ∈ raw, ∀ c' ∈ raw, name c = name c' → c = c') ∧
      ((∀ c ∈ raw, name c = .sideways) ∨
        (∃ c ∈ raw, name c = .bull) ∧ ∃ c ∈ raw, name c = .bear) ∧
      ∀ c ∈ raw, ∀ c' ∈ raw, (name c').rank < (name c).rank →
        meanOf raw trend c' ≤ meanOf raw trend c := by
  have hmem : ∀ c, c ∈ raw ↔ c ∈ ordered raw trend := fun c => mem_ordered.symm
  have hnodup : (ordered raw trend).Nodup := nodup_ordered
  have hpairwise : (ordered raw trend).Pairwise fun c c' =>
      meanOf raw trend c' ≤ meanOf raw trend c := pairwise_ordered
  -- labels below three leave room for three clusters at most
  have hlength : (ordered raw trend).length ≤ 3 := by
    rw [← List.toFinset_card_of_nodup hnodup]
    refine (Finset.card_le_card fun c hc => ?_).trans (Finset.card_range 3).le
    exact Finset.mem_range.mpr (hclusters c (mem_ordered.mp (List.mem_toFinset.mp hc)))
  generalize ordered raw trend = order at hmem hnodup hpairwise hlength ⊢
  simp only [hmem]
  rcases order with _ | ⟨first, _ | ⟨second, _ | ⟨third, _ | ⟨fourth, rest⟩⟩⟩⟩
  · -- there is a bar, so there is a cluster
    obtain ⟨c, hc⟩ := List.exists_mem_of_ne_nil raw hraw
    exact absurd ((hmem c).mp hc) List.not_mem_nil
  · exact ⟨_, rfl, fun _ => .sideways, by simp [List.lookup_cons], by simp, by simp, by simp⟩
  · -- two clusters: Bull and Bear, nothing between them
    have hne : first ≠ second := by simpa using hnodup
    have hle : meanOf raw trend second ≤ meanOf raw trend first := by simpa using hpairwise
    refine ⟨_, rfl, fun c => if c = first then .bull else .bear, ?_, ?_, ?_, ?_⟩
    · simp [List.lookup_cons, beq_false_of_ne hne.symm, hne.symm]
    · simp [hne, hne.symm]
    · exact .inr ⟨⟨first, by simp⟩, second, by simp [hne.symm]⟩
    · simp [Regime.rank, hne.symm, hle]
  · -- three clusters: the middle one is Sideways
    obtain ⟨⟨hfs, hft⟩, hst⟩ : (first ≠ second ∧ first ≠ third) ∧ second ≠ third := by
      simpa using hnodup
    obtain ⟨⟨hle₂, hle₃⟩, hle₂₃⟩ :
        (meanOf raw trend second ≤ meanOf raw trend first ∧
          meanOf raw trend third ≤ meanOf raw trend first) ∧
        meanOf raw trend third ≤ meanOf raw trend second := by
      simpa using hpairwise
    refine ⟨_, rfl, fun c => if c = first then .bull else if c = second then .sideways else .bear,
      ?_, ?_, ?_, ?_⟩
    · simp [List.lookup_cons, beq_false_of_ne hfs.symm, beq_false_of_ne hft.symm,
        beq_false_of_ne hst.symm, hfs.symm, hft.symm, hst.symm]
    · simp [hfs, hfs.symm, hft, hft.symm, hst, hst.symm]
    · exact .inr ⟨⟨first, by simp⟩, third, by simp [hft.symm, hst.symm]⟩
    · simp [Regime.rank, hfs.symm, hft.symm, hst.symm, hle₂, hle₃, hle₂₃]
  · simp only [List.length_cons] at hlength
    omega

/-- Looking up what is found for every entry is renaming the entries. -/
theorem mapM_lookup {names : List (ℕ × Regime)} {name : ℕ → Regime} {cs : List ℕ}
    (h : ∀ c ∈ cs, names.lookup c = some (name c)) :
    cs.mapM (fun c => names.lookup c) = some (cs.map name) := by
  induction cs with
  | nil => rfl
  | cons c cs ih =>
    rw [List.forall_mem_cons] at h
    rw [List.mapM_cons, h.1, ih h.2]
    rfl

/-- The names of the bars of at most three clusters. -/
theorem exists_nameRegimes (hraw : raw ≠ []) (hclusters : ∀ c ∈ raw, c < 3) (trend : List K) :
    ∃ labels, nameRegimes raw trend = some labels ∧ labels.length = raw.length ∧
      ((∀ r ∈ labels, r = .sideways) ∨ .bull ∈ labels ∧ .bear ∈ labels) ∧
      ∀ r ∈ labels, ∀ r' ∈ labels, r'.rank < r.rank →
        meanOf labels trend r' ≤ meanOf labels trend r := by
  obtain ⟨names, hnames, name, hlookup, hinjective, hkinds, hranks⟩ :=
    exists_mapping hraw hclusters trend
  refine ⟨raw.map name, ?_, List.length_map _, ?_, ?_⟩
  · rw [nameRegimes, hnames]
    exact mapM_lookup hlookup
  · rw [List.forall_mem_map]
    simpa only [List.mem_map] using hkinds
  · rw [List.forall_mem_map]
    intro c hc
    rw [List.forall_mem_map]
    intro c' hc' hrank
    rw [meanOf_map hinjective hc, meanOf_map hinjective hc']
    exact hranks c hc c' hc' hrank

end Naming

section Detect

variable [LinearOrder K] {sqrt : K → K}
  {fitPredict : List (Fin 3 → K) → ℕ → ℤ → Option (List ℕ)} {rng : Generator K}
  {X : List (Fin 3 → K)}

/-- Whoever finds the clusters, they are numbers below three, one for each bar. -/
theorem lt_three_of_rawClusters
    (hfit : ∀ X k seed raw, fitPredict X k seed = some raw → IsLabelling X k raw) {seed : ℤ}
    {raw : List ℕ} (h : rawClusters sqrt fitPredict rng X seed = some raw) :
    raw.length = X.length ∧ ∀ c ∈ raw, c < 3 := by
  have hlabelling :
      IsLabelling (standardize sqrt X) (if 3 ≤ X.length then 3 else 1) raw := by
    rcases Option.or_eq_some_iff.mp h with h | ⟨-, h⟩
    · exact hfit _ _ seed raw h
    · exact isLabelling_numpyKmeans (by split_ifs <;> decide) h
  refine ⟨hlabelling.1.trans (List.length_map _), fun c hc => ?_⟩
  refine (hlabelling.2 c hc).trans_le ?_
  split_ifs <;> decide

/-- The regimes of the bars. They are found unless both scikit-learn and the fallback raise, which
takes three bars and at most two different ones; there is only the sideways regime, or a bull and a
bear one; and of two regimes the one that stands higher has the mean trend that is not lower. -/
theorem detectRegimes_spec [IsStrictOrderedRing K]
    (hfit : ∀ X k seed raw, fitPredict X k seed = some raw → IsLabelling X k raw)
    (hrng : rng.IsDocumented) (hX : X ≠ []) (seed : ℤ) :
    ((detectRegimes sqrt fitPredict rng X seed).isSome ↔
      (fitPredict (standardize sqrt X) (if 3 ≤ X.length then 3 else 1) seed).isSome ∨
        X.length < 3 ∨ 3 ≤ distinctRows X) ∧
    ∀ labels, detectRegimes sqrt fitPredict rng X seed = some labels →
      labels.length = X.length ∧
      ((∀ r ∈ labels, r = .sideways) ∨ .bull ∈ labels ∧ .bear ∈ labels) ∧
      ∀ r ∈ labels, ∀ r' ∈ labels, r'.rank < r.rank →
        meanOf labels (X.map fun x => x 0) r' ≤ meanOf labels (X.map fun x => x 0) r := by
  -- the fallback is tried when scikit-learn raises
  have hsome : (rawClusters sqrt fitPredict rng X seed).isSome ↔
      (fitPredict (standardize sqrt X) (if 3 ≤ X.length then 3 else 1) seed).isSome ∨
        X.length < 3 ∨ 3 ≤ distinctRows X := by
    rw [rawClusters, Option.isSome_or, Bool.or_eq_true, detectRaw_isSome_iff sqrt hrng hX]
  rw [← hsome, detectRegimes]
  rcases hraw : rawClusters sqrt fitPredict rng X seed with _ | raw
  · simp
  · obtain ⟨hlength, hlt⟩ := lt_three_of_rawClusters hfit hraw
    have hne : raw ≠ [] := by
      rw [← List.length_pos_iff, hlength]
      exact List.length_pos_iff.mpr hX
    -- the naming of the clusters never fails
    obtain ⟨labels, hlabels, hlabelsLength, hkinds, hranks⟩ :=
      exists_nameRegimes hne hlt (X.map fun x => x 0)
    rw [Option.bind_eq_bind, Option.bind_some, hlabels]
    refine ⟨iff_of_true rfl rfl, fun labels' hlabels' => ?_⟩
    obtain rfl := Option.some.inj hlabels'
    exact ⟨hlabelsLength.trans hlength, hkinds, hranks⟩

/-- Four bars, with the standard deviation five, of which the fallback finds the regimes. -/
theorem detectRegimes_fourBars :
    ((detectRegimes Rat.sqrt (fun _ _ _ => none) firstDraws
        [![(0 : ℚ), 0, 0], ![6, 0, 0], ![8, 0, 0], ![14, 0, 0]] 42).isSome ↔
      (none : Option (List ℕ)).isSome ∨ 4 < 3 ∨
        3 ≤ distinctRows [![(0 : ℚ), 0, 0], ![6, 0, 0], ![8, 0, 0], ![14, 0, 0]]) ∧
    ∀ labels, detectRegimes Rat.sqrt (fun _ _ _ => none) firstDraws
        [![(0 : ℚ), 0, 0], ![6, 0, 0], ![8, 0, 0], ![14, 0, 0]] 42 = some labels →
      labels.length = 4 ∧
      ((∀ r ∈ labels, r = .sideways) ∨ .bull ∈ labels ∧ .bear ∈ labels) ∧
      ∀ r ∈ labels, ∀ r' ∈ labels, r'.rank < r.rank →
        meanOf labels [(0 : ℚ), 6, 8, 14] r' ≤ meanOf labels [0, 6, 8, 14] r :=
  detectRegimes_spec (fun _ _ _ _ h => absurd h (Option.some_ne_none _).symm)
    isDocumented_firstDraws (List.cons_ne_nil _ _) 42

end Detect

/-! ### The summary -/

/-- `counts[a][b]`. -/
def transitionCount (labels : List Regime) (a b : Regime) : ℕ :=
  (labels.dropLast.zip labels.tail).count (a, b)

/-- `_transition_matrix`. -/
def transitionMatrix (K : Type) [Field K] (labels : List Regime) (a b : Regime) : K :=
  let rowTotal := (REGIME_LABELS.map (transitionCount labels a)).sum
  if rowTotal = 0 then 0 else (transitionCount labels a b : K) / (rowTotal : K)

/-- The `summary` of `analyze_regime`. -/
structure RegimeSummary (K : Type) where
  currentRegime : Regime
  currentRun : ℕ
  nBars : ℕ
  distribution : Regime → K
  regimeVolatility : Regime → K
  transitions : Regime → Regime → K
  lastClose : K

/-- The `summary` of `analyze_regime` from the names, volatilities and closes of the bars, which
asks for the last name and the last close. -/
def summarize (round : K → ℕ → K) (labels : List Regime) (vols closes : List K) :
    Option (RegimeSummary K) := do
  let n := labels.length
  let current ← labels.getLast?
  let lastClose ← closes.getLast?
  some
    { currentRegime := current
      currentRun := (labels.reverse.takeWhile fun r => r = current).length
      nBars := n
      distribution := fun lbl => round ((100 : ℕ) * (labels.count lbl : K) / (n : K)) 2
      regimeVolatility := fun lbl =>
        let vs := ((labels.zip vols).filter fun bar => bar.1 = lbl).map Prod.snd
        if vs.isEmpty then 0 else round (Series.mean vs * (100 : ℕ)) 2
      transitions := transitionMatrix K labels
      lastClose := round lastClose 2 }

/-- The current run is the last one, and it is not a part of a longer one. -/
theorem exists_eq_append_run (labels : List Regime) (current : Regime) :
    ∃ front, labels = front ++
        List.replicate (labels.reverse.takeWhile fun r => r = current).length current ∧
      front.getLast? ≠ some current := by
  refine ⟨(labels.reverse.dropWhile fun r => r = current).reverse, ?_, ?_⟩
  · have hrun : (labels.reverse.takeWhile fun r => r = current) =
        List.replicate (labels.reverse.takeWhile fun r => r = current).length current := by
      refine List.eq_replicate_iff.mpr ⟨rfl, fun r hr => ?_⟩
      simpa using List.mem_takeWhile_imp hr
    have hsplit := congrArg List.reverse
      (List.takeWhile_append_dropWhile (p := fun r => decide (r = current)) (l := labels.reverse))
    rw [List.reverse_append, List.reverse_reverse] at hsplit
    conv_lhs => rw [← hsplit, hrun]
    simp
  · rw [List.getLast?_reverse]
    intro hhead
    have hnot := List.head?_dropWhile_not (fun r => decide (r = current)) labels.reverse
    rw [hhead] at hnot
    simp at hnot

/-- The summary of the names of the bars: the last run, the transition matrix with rows that sum to
one, and counts that are stationary under it, up to the last and the first bar. -/
theorem summarize_spec [CharZero K] {round : K → ℕ → K} {labels : List Regime}
    {vols closes : List K}
    {first : Regime} {summary : RegimeSummary K} (hfirst : labels.head? = some first)
    (hsummary : summarize round labels vols closes = some summary) :
    (∃ front, labels = front ++ List.replicate summary.currentRun summary.currentRegime ∧
      front.getLast? ≠ some summary.currentRegime) ∧
    (∀ a, (REGIME_LABELS.map (summary.transitions a)).sum =
      if a ∈ labels.dropLast then 1 else 0) ∧
    ∀ b, (REGIME_LABELS.map fun a =>
        ((labels.count a : K) - if summary.currentRegime = a then 1 else 0) *
          summary.transitions a b).sum =
      (labels.count b : K) - if first = b then 1 else 0 := by
  simp only [summarize, Option.bind_eq_bind, Option.bind_eq_some_iff] at hsummary
  obtain ⟨current, hlast, lastClose, -, hsummary⟩ := hsummary
  obtain rfl := Option.some.inj hsummary
  refine ⟨exists_eq_append_run labels current, fun a => ?_, fun b => ?_⟩
  · exact Transitions.sum_matrix labels a
  · exact Transitions.sum_count_mul_matrix hfirst hlast b

/-- Two bull bars and a bear bar. -/
theorem summarize_threeBars :
    (∃ front, [.bull, .bull, .bear] = front ++ List.replicate 1 Regime.bear ∧
      front.getLast? ≠ some .bear) ∧
    (∀ a, (REGIME_LABELS.map (transitionMatrix ℚ [.bull, .bull, .bear] a)).sum =
      if a ∈ [Regime.bull, .bull] then 1 else 0) ∧
    ∀ b, (REGIME_LABELS.map fun a =>
        (([Regime.bull, .bull, .bear].count a : ℚ) - if Regime.bear = a then 1 else 0) *
          transitionMatrix ℚ [.bull, .bull, .bear] a b).sum =
      ([Regime.bull, .bull, .bear].count b : ℚ) - if Regime.bull = b then 1 else 0 :=
  summarize_spec rfl
    (rfl : summarize (fun x _ => x) [.bull, .bull, .bear] [0, 0, 0] [(1 : ℚ), 2, 1] = some _)

end TradingSimulator.RegimeModel
