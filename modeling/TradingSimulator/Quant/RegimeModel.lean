import TradingSimulator.Library.Clustering
import Mathlib.Data.Finset.Dedup
import Mathlib.Data.Finset.Image
import Mathlib.Data.Fintype.Pi
import Mathlib.Algebra.Order.Field.Rat
import Mathlib.Data.Fin.VecNotation

/-!
# The regime clusters

Without scikit-learn, `detect_regimes` (`app/quant/regime/regime_model.py`) clusters the bars with
`_numpy_kmeans`. Its seeding draws each centre after the first with probabilities that are in
proportion to the squared distances from the centres so far. They sum to one as long as some row is
not a centre yet; once all are, every distance is zero and `choice` raises. So the fallback returns
labels exactly where there are as many distinct rows as clusters (`numpyKmeans_total_iff`).
-/

namespace TradingSimulator.RegimeModel

open Clustering

/-- What `_numpy_kmeans` uses of `np.random.Generator`. A method returns the state it leaves behind;
`choice` is `none` where it raises. -/
structure Generator (K : Type) where
  State : Type
  defaultRng : ℤ → State
  integers : State → ℕ → ℕ × State
  choice : State → ℕ → List K → Option (ℕ × State)

/-- The documented behaviour of the generator: `integers` draws below its bound, and `choice` raises
unless it is given as many probabilities as there are indices, none of them negative and with the
sum one, and draws an index of positive probability. -/
structure Generator.IsDocumented {K : Type} [Field K] [LinearOrder K] (rng : Generator K) :
    Prop where
  integers_lt : ∀ s n, 0 < n → (rng.integers s n).1 < n
  choice_isSome_iff : ∀ s n p,
    (rng.choice s n p).isSome ↔ p.length = n ∧ (∀ x ∈ p, 0 ≤ x) ∧ p.sum = 1
  choice_pos : ∀ s n p i s', rng.choice s n p = some (i, s') → ∃ x, p[i]? = some x ∧ 0 < x

section Definitions

variable {d : ℕ} {K : Type} [Field K] [LinearOrder K]

/-- The squared distance of each row to its nearest centre. -/
def d2 (X centers : List (Fin d → K)) : List K := X.map fun x => least (centers.map (sqDist x))

/-- The probabilities of the rows: `d2 / (d2.sum() or 1.0)`. -/
def probs (X centers : List (Fin d → K)) : List K := normalized (d2 X centers)

/-- One more centre, with the state of the generator after it. -/
def nextCenter (rng : Generator K) (X : List (Fin d → K)) (s : rng.State)
    (centers : List (Fin d → K)) : Option ((Fin d → K) × rng.State) := do
  let (i, s') ← rng.choice s X.length (probs X centers)
  let center ← X[i]?
  some (center, s')

/-- The seeding loop. -/
def addCenters (rng : Generator K) (X : List (Fin d → K)) :
    ℕ → rng.State → List (Fin d → K) → Option (List (Fin d → K))
  | 0, _, centers => some centers
  | rounds + 1, s, centers => do
    let (center, s') ← nextCenter rng X s centers
    addCenters rng X rounds s' (centers ++ [center])

/-- The k-means++ style seeding. -/
def seedCenters (rng : Generator K) (X : List (Fin d → K)) (k : ℕ) (seed : ℤ) :
    Option (List (Fin d → K)) := do
  let (i, s) := rng.integers (rng.defaultRng seed) X.length
  let center ← X[i]?
  addCenters rng X (k - 1) s [center]

/-- The labels of the rows: the index of the nearest centre. -/
def assign (sqrt : K → K) (X C : List (Fin d → K)) : List ℕ :=
  X.map fun x => argmin (C.map fun c => sqrt (sqDist x c))

/-- `X[labels == c]`. -/
def pts (X : List (Fin d → K)) (labels : List ℕ) (c : ℕ) : List (Fin d → K) :=
  ((X.zip labels).filter fun row => row.2 = c).map Prod.fst

/-- The centres after one pass: the mean of the rows with their label, if there are any. -/
def updateCenters (X : List (Fin d → K)) (labels : List ℕ) (C : List (Fin d → K)) :
    List (Fin d → K) :=
  C.mapIdx fun c center => if pts X labels c = [] then center else centroid (pts X labels c)

/-- Lloyd's loop, which stops when the labels stay the same; with the labels, the centres that it
leaves. -/
def lloyd (sqrt : K → K) (X : List (Fin d → K)) :
    ℕ → List ℕ → List (Fin d → K) → List ℕ × List (Fin d → K)
  | 0, labels, C => (labels, C)
  | iters + 1, labels, C =>
    let new := assign sqrt X C
    if new = labels then (labels, C) else lloyd sqrt X iters new (updateCenters X new C)

/-- `_numpy_kmeans`, which is `none` where it raises. -/
def numpyKmeans (sqrt : K → K) (rng : Generator K) (X : List (Fin d → K)) (k : ℕ) (seed : ℤ)
    (iters : ℕ := 50) : Option (List ℕ) :=
  if X.length = 0 then some []
  else do
    let C ← seedCenters rng X k seed
    some (lloyd sqrt X iters (List.replicate X.length 0) C).1

/-- `X.mean(axis=0)`. -/
def mu (X : List (Fin d → K)) : Fin d → K := centroid X

/-- `X.std(axis=0)`, where zero counts as one. -/
def sigma (sqrt : K → K) (X : List (Fin d → K)) : Fin d → K := fun j =>
  let std := sqrt ((X.map fun x => (x j - mu X j) ^ 2).sum / X.length)
  if std = 0 then 1 else std

/-- The z-scores of the features. -/
def standardize (sqrt : K → K) (X : List (Fin d → K)) : List (Fin d → K) :=
  X.map fun x j => (x j - mu X j) / sigma sqrt X j

/-- The clusters that `detect_regimes` finds without scikit-learn. -/
def detectRaw (sqrt : K → K) (rng : Generator K) (X : List (Fin d → K)) (seed : ℤ := 42) :
    Option (List ℕ) :=
  let k := if 3 ≤ X.length then 3 else 1
  numpyKmeans sqrt rng (standardize sqrt X) k seed

end Definitions

section DistinctRows

variable {A : Type} {X centers : List A}

/-- The invariant of the seeding: the centres are different rows. -/
structure IsSeeding (X centers : List A) : Prop where
  nodup : centers.Nodup
  subset : centers ⊆ X
  ne_nil : centers ≠ []

theorem IsSeeding.singleton {x : A} (hx : x ∈ X) : IsSeeding X [x] where
  nodup := List.nodup_singleton x
  subset := by simpa using hx
  ne_nil := List.cons_ne_nil _ _

/-- A row that is not a centre yet may become the next one. -/
theorem IsSeeding.concat (h : IsSeeding X centers) {x : A} (hx : x ∈ X) (hnew : x ∉ centers) :
    IsSeeding X (centers ++ [x]) where
  nodup := by
    rw [List.nodup_append]
    refine ⟨h.nodup, List.nodup_singleton x, ?_⟩
    rintro c hc c' hc' rfl
    exact hnew (List.mem_singleton.mp hc' ▸ hc)
  subset := by
    apply List.append_subset.mpr ⟨h.subset, ?_⟩
    simpa using hx
  ne_nil := by simp

variable [DecidableEq A]

/-- How many different rows there are. -/
def distinctRows (X : List A) : ℕ := X.toFinset.card

theorem IsSeeding.toFinset_subset (h : IsSeeding X centers) : centers.toFinset ⊆ X.toFinset := by
  intro x hx
  rw [List.mem_toFinset] at hx ⊢
  exact h.subset hx

theorem IsSeeding.length_le (h : IsSeeding X centers) : centers.length ≤ distinctRows X := by
  rw [← List.toFinset_card_of_nodup h.nodup]
  exact Finset.card_le_card h.toFinset_subset

/-- There are fewer centres than different rows as long as some row is not a centre. -/
theorem IsSeeding.length_lt_iff (h : IsSeeding X centers) :
    centers.length < distinctRows X ↔ ∃ x ∈ X, x ∉ centers := by
  constructor
  · intro hlt
    rw [← List.toFinset_card_of_nodup h.nodup] at hlt
    obtain ⟨x, hx, hmem⟩ := Finset.exists_mem_notMem_of_card_lt_card hlt
    exact ⟨x, List.mem_toFinset.mp hx, fun hc => hmem (List.mem_toFinset.mpr hc)⟩
  · rintro ⟨x, hx, hmem⟩
    rw [← List.toFinset_card_of_nodup h.nodup]
    apply Finset.card_lt_card
    refine ⟨h.toFinset_subset, fun hsub => hmem ?_⟩
    exact List.mem_toFinset.mp (hsub (List.mem_toFinset.mpr hx))

end DistinctRows

section Seeding

variable {d : ℕ} {K : Type} [Field K] [LinearOrder K] {rng : Generator K}
  {X centers : List (Fin d → K)}

/-- Each round adds one centre. -/
theorem length_addCenters {rounds : ℕ} {s : rng.State} {C : List (Fin d → K)}
    (h : addCenters rng X rounds s centers = some C) : C.length = centers.length + rounds := by
  induction rounds generalizing s centers with
  | zero =>
    rw [addCenters, Option.some_inj] at h
    rw [h, add_zero]
  | succ rounds ih =>
    simp only [addCenters, Option.bind_eq_bind, Option.bind_eq_some_iff] at h
    obtain ⟨⟨center, s'⟩, -, h⟩ := h
    rw [ih h, List.length_append, List.length_singleton]
    omega

/-- There are as many centers as were asked for. -/
theorem length_seedCenters {k : ℕ} (hk : 1 ≤ k) {seed : ℤ} {C : List (Fin d → K)}
    (h : seedCenters rng X k seed = some C) : C.length = k := by
  simp only [seedCenters, Option.bind_eq_bind, Option.bind_eq_some_iff] at h
  obtain ⟨center, -, h⟩ := h
  rw [length_addCenters h, List.length_singleton]
  omega

/-- The first draw is always a row. -/
theorem exists_first (hrng : rng.IsDocumented) (hX : X ≠ []) (seed : ℤ) :
    ∃ center ∈ X, X[(rng.integers (rng.defaultRng seed) X.length).1]? = some center := by
  have hlt := hrng.integers_lt (rng.defaultRng seed) X.length (List.length_pos_of_ne_nil hX)
  exact ⟨_, List.getElem_mem hlt, List.getElem?_eq_getElem hlt⟩

variable [IsStrictOrderedRing K]

theorem d2_nonneg (hcenters : centers ≠ []) : ∀ w ∈ d2 X centers, 0 ≤ w := by
  intro w hw
  obtain ⟨x, -, rfl⟩ := List.mem_map.mp hw
  exact least_sqDist_nonneg hcenters x

/-- A draw does not raise as long as some row is not a centre. -/
theorem choice_isSome_iff (hrng : rng.IsDocumented) (hcenters : centers ≠ []) (s : rng.State) :
    (rng.choice s X.length (probs X centers)).isSome ↔ ∃ x ∈ X, x ∉ centers := by
  have hlength : (probs X centers).length = X.length := by
    rw [probs, length_normalized, d2, List.length_map]
  rw [hrng.choice_isSome_iff, probs, sum_normalized_eq_one_iff (d2_nonneg hcenters)]
  constructor
  · rintro ⟨-, -, w, hw, hne⟩
    obtain ⟨x, hx, rfl⟩ := List.mem_map.mp hw
    exact ⟨x, hx, fun hmem => hne ((least_sqDist_eq_zero_iff hcenters).mpr hmem)⟩
  · rintro ⟨x, hx, hmem⟩
    refine ⟨hlength, normalized_nonneg (d2_nonneg hcenters), _, List.mem_map_of_mem hx, ?_⟩
    exact fun hzero => hmem ((least_sqDist_eq_zero_iff hcenters).mp hzero)

/-- The row that is drawn is a new centre. -/
theorem mem_of_choice (hrng : rng.IsDocumented) (hcenters : centers ≠ []) {s s' : rng.State}
    {i : ℕ} (h : rng.choice s X.length (probs X centers) = some (i, s')) :
    ∃ x, X[i]? = some x ∧ x ∉ centers := by
  -- its probability is positive, so it is not at distance zero from the centres
  obtain ⟨p, hp, hpos⟩ := hrng.choice_pos _ _ _ _ _ h
  obtain ⟨w, hw, hne⟩ := weight_ne_zero_of_share_pos hp hpos
  rw [d2, List.getElem?_map, Option.map_eq_some_iff] at hw
  obtain ⟨x, hx, rfl⟩ := hw
  exact ⟨x, hx, fun hmem => hne ((least_sqDist_eq_zero_iff hcenters).mpr hmem)⟩

/-- A round adds a row that is not a centre yet. -/
theorem nextCenter_spec (hrng : rng.IsDocumented) (hcenters : centers ≠ []) {s s' : rng.State}
    {center : Fin d → K} (h : nextCenter rng X s centers = some (center, s')) :
    center ∈ X ∧ center ∉ centers := by
  simp only [nextCenter, Option.bind_eq_bind, Option.bind_eq_some_iff, Option.some_inj,
    Prod.mk.injEq] at h
  obtain ⟨⟨i, s''⟩, hchoice, x, hx, rfl, -⟩ := h
  obtain ⟨x', hx', hnew⟩ := mem_of_choice hrng hcenters hchoice
  obtain rfl : x = x' := Option.some_inj.mp (hx.symm.trans hx')
  exact ⟨List.mem_of_getElem? hx, hnew⟩

/-- A round raises only when every row is a centre. -/
theorem nextCenter_isSome_iff (hrng : rng.IsDocumented) (hcenters : centers ≠ [])
    (s : rng.State) : (nextCenter rng X s centers).isSome ↔ ∃ x ∈ X, x ∉ centers := by
  rw [← choice_isSome_iff hrng hcenters s]
  cases hchoice : rng.choice s X.length (probs X centers) with
  | none => simp [nextCenter, hchoice]
  | some drawn =>
    obtain ⟨x, hx, -⟩ := mem_of_choice hrng hcenters hchoice
    simp [nextCenter, hchoice, hx]

/-- The rounds do not raise if and only if there are enough rows for them. -/
theorem addCenters_isSome_iff (hrng : rng.IsDocumented) (hseeding : IsSeeding X centers)
    (rounds : ℕ) (s : rng.State) :
    (addCenters rng X rounds s centers).isSome ↔ centers.length + rounds ≤ distinctRows X := by
  induction rounds generalizing s centers with
  | zero => simpa [addCenters] using hseeding.length_le
  | succ rounds ih =>
    have hsome := nextCenter_isSome_iff (X := X) hrng hseeding.ne_nil s
    rw [← hseeding.length_lt_iff] at hsome
    cases hnext : nextCenter rng X s centers with
    | none =>
      -- every row is a centre, so the rows are used up
      have hall : ¬ centers.length < distinctRows X := by
        rw [← hsome, hnext]
        simp
      simp only [addCenters, hnext, Option.bind_eq_bind, Option.bind_none, Option.isSome_none,
        Bool.false_eq_true, false_iff]
      omega
    | some drawn =>
      -- one centre more and one round less
      obtain ⟨hx, hnew⟩ := nextCenter_spec hrng hseeding.ne_nil hnext
      simp only [addCenters, hnext, Option.bind_eq_bind, Option.bind_some]
      rw [ih (hseeding.concat hx hnew), List.length_append, List.length_singleton]
      omega

/-- There are centers as long as there are that many different rows. -/
theorem seedCenters_isSome_iff (hrng : rng.IsDocumented) (hX : X ≠ []) {k : ℕ} (hk : 1 ≤ k)
    (seed : ℤ) : (seedCenters rng X k seed).isSome ↔ k ≤ distinctRows X := by
  obtain ⟨center, hmem, hfirst⟩ := exists_first hrng hX seed
  simp only [seedCenters, hfirst, Option.bind_eq_bind, Option.bind_some]
  rw [addCenters_isSome_iff hrng (IsSeeding.singleton hmem), List.length_singleton]
  omega

end Seeding

section Lloyd

variable {d : ℕ} {K : Type} [Field K] {sqrt : K → K} {X C : List (Fin d → K)}

theorem length_updateCenters (labels : List ℕ) :
    (updateCenters X labels C).length = C.length := by
  rw [updateCenters, List.length_mapIdx]

/-- As many labels as rows, each the index of one of `k` centres. -/
def IsLabelling (X : List (Fin d → K)) (k : ℕ) (labels : List ℕ) : Prop :=
  labels.length = X.length ∧ ∀ label ∈ labels, label < k

variable [LinearOrder K]

/-- Every row has the label of a center. -/
theorem isLabelling_assign (hC : C ≠ []) : IsLabelling X C.length (assign sqrt X C) := by
  constructor
  · rw [assign, List.length_map]
  · intro label hlabel
    obtain ⟨x, -, rfl⟩ := List.mem_map.mp hlabel
    have hlt := argmin_lt (l := C.map fun c => sqrt (sqDist x c)) (by simpa using hC)
    rwa [List.length_map] at hlt

/-- Lloyd's loop keeps to labels of its centres, whose number does not change. -/
theorem isLabelling_lloyd {k : ℕ} (hk : 1 ≤ k) (hC : C.length = k) {labels : List ℕ}
    (hlabels : IsLabelling X k labels) (iters : ℕ) :
    IsLabelling X k (lloyd sqrt X iters labels C).1 := by
  induction iters generalizing labels C with
  | zero => exact hlabels
  | succ iters ih =>
    rw [lloyd]
    split_ifs
    · exact hlabels
    · -- the new labels are indices of the centres before the update, of which there are as many
      apply ih
      · rw [length_updateCenters, hC]
      · rw [← hC]
        apply isLabelling_assign
        rw [← List.length_pos_iff]
        omega

/-- What the fallback returns are labels of `k` clusters. -/
theorem isLabelling_numpyKmeans {rng : Generator K} {k : ℕ} (hk : 1 ≤ k) {seed : ℤ} {iters : ℕ}
    {labels : List ℕ} (h : numpyKmeans sqrt rng X k seed iters = some labels) :
    IsLabelling X k labels := by
  unfold numpyKmeans at h
  split_ifs at h with hlength
  · obtain rfl : [] = labels := Option.some_inj.mp h
    exact ⟨hlength.symm, fun label hlabel => absurd hlabel List.not_mem_nil⟩
  · rw [Option.bind_eq_bind, Option.bind_eq_some_iff] at h
    obtain ⟨C, hC, hlabels⟩ := h
    obtain rfl := Option.some_inj.mp hlabels
    apply isLabelling_lloyd hk (length_seedCenters hk hC)
    constructor
    · exact List.length_replicate
    · intro label hlabel
      rw [List.eq_of_mem_replicate hlabel]
      exact hk

end Lloyd

/-- A generator whose draws are the first that it may make. -/
def firstDraws : Generator ℚ where
  State := Unit
  defaultRng := fun _ => ()
  integers := fun s _ => (0, s)
  choice := fun s n p =>
    if p.length = n ∧ (∀ x ∈ p, 0 ≤ x) ∧ p.sum = 1 then
      some (p.findIdx fun x => decide (0 < x), s)
    else none

/-- It takes the first index that has a positive probability. -/
theorem isDocumented_firstDraws : firstDraws.IsDocumented where
  integers_lt := fun _ _ hn => hn
  choice_isSome_iff := by
    intro s n p
    simp only [firstDraws]
    split_ifs with h
    · exact ⟨fun _ => h, fun _ => rfl⟩
    · exact ⟨fun hsome => by simp at hsome, fun hp => absurd hp h⟩
  choice_pos := by
    intro s n p i s' hdraw
    simp only [firstDraws] at hdraw
    split_ifs at hdraw with h
    obtain ⟨rfl, -⟩ := Prod.mk.inj (Option.some_inj.mp hdraw)
    have hpos : ∃ x ∈ p, decide (0 < x) = true := by
      by_contra hnone
      push Not at hnone
      have hsum : p.sum = 0 := List.sum_eq_zero fun x hx =>
        le_antisymm (by simpa using hnone x hx) (h.2.1 x hx)
      exact zero_ne_one (hsum.symm.trans h.2.2)
    have hlt := List.findIdx_lt_length_of_exists hpos
    exact ⟨_, List.getElem?_eq_getElem hlt, of_decide_eq_true (List.findIdx_getElem (w := hlt))⟩

section Total

variable {d : ℕ} {K : Type} [Field K] [LinearOrder K] [IsStrictOrderedRing K]

/-- The clustering only fails for want of different rows. -/
theorem numpyKmeans_isSome_iff (sqrt : K → K) {rng : Generator K} (hrng : rng.IsDocumented)
    {X : List (Fin d → K)} (hX : X ≠ []) {k : ℕ} (hk : 1 ≤ k) (seed : ℤ) (iters : ℕ) :
    (numpyKmeans sqrt rng X k seed iters).isSome ↔ k ≤ distinctRows X := by
  have hlength : X.length ≠ 0 := fun h => hX (List.length_eq_zero_iff.mp h)
  rw [← seedCenters_isSome_iff hrng hX hk seed, numpyKmeans, if_neg hlength]
  cases seedCenters rng X k seed with
  | none => rfl
  | some C => exact ⟨fun _ => rfl, fun _ => rfl⟩

/-- The z-scores of different rows are different. -/
theorem distinctRows_standardize (sqrt : K → K) (X : List (Fin d → K)) :
    distinctRows (standardize sqrt X) = distinctRows X := by
  have hsigma : ∀ j, sigma sqrt X j ≠ 0 := by
    intro j
    simp only [sigma]
    split_ifs with hstd
    · exact one_ne_zero
    · exact hstd
  -- a coordinate is shifted and scaled by what is not zero
  have hinjective :
      Function.Injective fun (x : Fin d → K) j => (x j - mu X j) / sigma sqrt X j := by
    intro x y hxy
    ext j
    have hj := congrFun hxy j
    rwa [div_left_inj' (hsigma j), sub_left_inj] at hj
  have himage : (standardize sqrt X).toFinset =
      X.toFinset.image fun x j => (x j - mu X j) / sigma sqrt X j := by
    ext x
    simp only [standardize, List.mem_toFinset, List.mem_map, Finset.mem_image]
  rw [distinctRows, himage, Finset.card_image_of_injective _ hinjective, distinctRows]

/-- The regimes of three or more bars need three different rows of features. -/
theorem detectRaw_isSome_iff (sqrt : K → K) {rng : Generator K} (hrng : rng.IsDocumented)
    {X : List (Fin d → K)} (hX : X ≠ []) (seed : ℤ) :
    (detectRaw sqrt rng X seed).isSome ↔ X.length < 3 ∨ 3 ≤ distinctRows X := by
  have hstandardize : standardize sqrt X ≠ [] := by
    simpa [standardize] using hX
  unfold detectRaw
  split_ifs with hlength
  · rw [numpyKmeans_isSome_iff sqrt hrng hstandardize (by decide), distinctRows_standardize]
    omega
  · have hpos : 0 < distinctRows X := Finset.card_pos.mpr (List.toFinset_nonempty_iff X |>.mpr hX)
    rw [numpyKmeans_isSome_iff sqrt hrng hstandardize le_rfl, distinctRows_standardize]
    omega

/-- Whatever it draws, the fallback returns a label below `k` for every row if and only if there are
at least `k` different rows; otherwise it raises. -/
theorem numpyKmeans_total_iff (sqrt : K → K) {rng : Generator K} (hrng : rng.IsDocumented)
    {X : List (Fin d → K)} (hX : X ≠ []) {k : ℕ} (hk : 1 ≤ k) (seed : ℤ) (iters : ℕ) :
    (∃ labels, numpyKmeans sqrt rng X k seed iters = some labels ∧
        labels.length = X.length ∧ ∀ label ∈ labels, label < k) ↔
      k ≤ distinctRows X := by
  rw [← numpyKmeans_isSome_iff sqrt hrng hX hk seed iters, Option.isSome_iff_exists]
  constructor
  · rintro ⟨labels, hlabels, -⟩
    exact ⟨labels, hlabels⟩
  · rintro ⟨labels, hlabels⟩
    exact ⟨labels, hlabels, isLabelling_numpyKmeans hk hlabels⟩

/-- Two different bars make two clusters. -/
theorem numpyKmeans_total_iff_twoRows :
    (∃ labels, numpyKmeans id firstDraws [![(0 : ℚ)], ![1]] 2 42 50 = some labels ∧
        labels.length = 2 ∧ ∀ label ∈ labels, label < 2) ↔
      2 ≤ distinctRows [![(0 : ℚ)], ![1]] :=
  numpyKmeans_total_iff id isDocumented_firstDraws (by simp) (by decide) 42 50

/-- Three bars with the same features make three clusters impossible. -/
theorem not_total_constantRows :
    ¬ ∀ (sqrt : ℚ → ℚ) (rng : Generator ℚ), rng.IsDocumented →
      ∀ (X : List (Fin 1 → ℚ)) (k : ℕ) (seed : ℤ), 1 ≤ X.length → 1 ≤ k → k ≤ X.length →
        ∃ labels, numpyKmeans sqrt rng X k seed = some labels ∧
          labels.length = X.length ∧ ∀ label ∈ labels, label < k := by
  intro h
  -- the second draw raises, before any root is taken
  obtain ⟨labels, hlabels, -⟩ := h id firstDraws isDocumented_firstDraws [![0], ![0], ![0]] 3 42
    (by decide) (by decide) (by decide)
  have hraise : numpyKmeans id firstDraws [![(0 : ℚ)], ![0], ![0]] 3 42 = none := by
    decide +kernel
  rw [hraise] at hlabels
  exact absurd hlabels (by simp)

end Total

end TradingSimulator.RegimeModel
