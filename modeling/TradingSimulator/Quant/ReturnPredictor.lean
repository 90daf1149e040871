import TradingSimulator.Quant.Backtester
import Mathlib.Data.List.ReduceOption

/-!
# The return predictor

The features, the random forest and the positions of `predict_returns`
(`app/quant/return_predictor.py`), in exact arithmetic. The random generator of numpy is a
parameter: whatever it draws is a function of its seed and of the draws before.

As in the backtester, an entry of an array that may be NaN is an `Option`, with `none` for NaN.
-/

namespace TradingSimulator.ReturnPredictor

open Series

section Features

variable {K : Type} [Field K]

/-! ### Features -/

/-- `_sma`. -/
def sma (x : List K) (w : ℕ) : Except ArrayError (List (Option K)) := do
  let c := cumsum (0 :: x)
  let sums ← elementwise (fun upper lower => upper - lower) (c.drop w) (c.take (c.length - w))
  assignFrom (List.replicate x.length none) (w - 1) (sums.map fun sum => some (sum / w))

/-- `_rolling_std`, whose first window is the one that ends at entry `w`. -/
def rollingStd (sqrt : K → K) (x : List K) (w : ℕ) : List (Option K) :=
  (List.range x.length).map fun i =>
    if i < w then none else some (std sqrt ((x.drop (i + 1 - w)).take w))

variable [LinearOrder K]

/-- `_rsi`. -/
def rsi (x : List K) (period : ℕ) : Except ArrayError (List K) := do
  let first ← x.head?.elim (.error .index) .ok
  let delta := diff (first :: x)
  let ag ← Backtester.wilder (delta.map fun change => if 0 < change then change else 0) period
  let al ← Backtester.wilder (delta.map fun change => if change < 0 then -change else 0) period
  let rs := List.zipWith
    (fun gain loss => gain / if loss = 0 then 1 / ((10 : ℕ) : K) ^ 9 else loss) ag al
  let values := rs.map fun ratio => ((100 : ℕ) : K) - ((100 : ℕ) : K) / (1 + ratio)
  .ok (List.replicate (min period values.length) ((50 : ℕ) : K) ++ values.drop period)

/-- `close / _sma(close, w) - 1.0`. -/
def maRatio (close : List K) (w : ℕ) : Except ArrayError (List (Option K)) := do
  let mean ← sma close w
  elementwise (fun price mean => mean.map fun mean => price / mean - 1) close mean

/-- `(vols - _sma(vols, w)) / (_rolling_std(vols, w) + 1e-9)`. -/
def volZ (sqrt : K → K) (vols : List K) (w : ℕ) : Except ArrayError (List (Option K)) := do
  let mean ← sma vols w
  let deviation ← elementwise (fun volume mean => mean.map fun mean => volume - mean) vols mean
  elementwise (Option.map₂ fun deviation sd => deviation / (sd + 1 / ((10 : ℕ) : K) ^ 9)) deviation
    (rollingStd sqrt vols w)

/-- `np.column_stack`: the rows of a matrix that is given by its columns. -/
def columnStack (columns : List (List (Option K))) (n : ℕ) :
    Except ArrayError (List (List (Option K))) :=
  if ∀ column ∈ columns, column.length = n then
    .ok ((List.range n).map fun j => columns.map fun column => column.getD j none)
  else .error .broadcast

/-- What `_build_features` returns. -/
structure Features (K : Type) where
  X : List (List (Option K))
  y : List K
  ret : List K
  valid : List Bool

/-- `_build_features`. -/
def buildFeatures (sqrt : K → K) (close vols : List K) : Except ArrayError (Features K) := do
  let n := close.length
  -- `close[1:] / close[:-1]`
  let ratios ← elementwise (fun price past => price / past) (close.drop 1) (close.take (n - 1))
  let ret ← assignFrom (List.replicate n 0) 1 (ratios.map fun ratio => ratio - 1)
  let ma5 ← maRatio close 5
  let ma10 ← maRatio close 10
  let ma20 ← maRatio close 20
  -- `close[10:] / close[:-10]`
  let changes ← elementwise (fun price past => price / past) (close.drop 10) (close.take (n - 10))
  let rsi14 ← rsi close 14
  let volz10 ← volZ sqrt vols 10
  let X ← columnStack [
    (roll ret 1).map some, (roll ret 2).map some, (roll ret 3).map some, (roll ret 5).map some,
    ma5, ma10, ma20,
    (List.replicate 10 0 ++ changes.map fun ratio => ratio - 1).map some,
    rollingStd sqrt ret 10, rollingStd sqrt ret 20,
    rsi14.map fun value => some ((value - ((50 : ℕ) : K)) / ((50 : ℕ) : K)),
    volz10] n
  .ok {
    X
    -- the label of a row is the return of the next one
    y := ret.drop 1 ++ [0]
    ret
    -- the last row has no label
    valid := (X.map fun row => row.all Option.isSome).dropLast ++ [false] }

namespace Features

/-- `np.where(valid)[0]`. -/
def vidx (F : Features K) : List ℕ :=
  (List.range F.valid.length).filter fun j => F.valid.getD j false

/-- `X[valid]`, without the NaN that no valid row has. -/
def Xv (F : Features K) : List (List K) := F.vidx.map fun j => (F.X.getD j []).reduceOption

/-- `y[valid]`. -/
def yv (F : Features K) : List K := F.vidx.map fun j => F.y.getD j 0

/-- `split`: 70% of the valid rows, rounded down, are for training. -/
def split (F : Features K) : ℕ := 7 * F.Xv.length / 10

/-- The rows of the test set. -/
def testRows (F : Features K) : List ℕ := F.vidx.drop F.split

end Features

end Features

/-! ### The random forest -/

section Forest

variable {σ K : Type} [Field K] [LinearOrder K]

/-- `np.random.Generator`. -/
structure Rng (σ : Type) where
  defaultRng : ℕ → σ
  /-- `integers(0, high, size)`. -/
  integers : σ → ℕ → ℕ → List ℕ × σ
  /-- `choice(n, size, replace=False)`. -/
  choice : σ → ℕ → ℕ → List ℕ × σ

/-- `np.mean`, which is NaN for no entries. -/
def nanMean : List K → Option K
  | [] => none
  | xs => some (mean xs)

/-- A fitted tree: a leaf with its value, or a split of a feature at a threshold. -/
inductive Tree (K : Type) where
  | leaf (v : Option K)
  | node (f : ℕ) (t : K) (L R : Tree K)

/-- The parameters of a forest, with the defaults of `min_split` and `min_leaf`. A split reads the
last of its rows, so that it has one. -/
structure ForestParams where
  nEstimators : ℕ
  maxDepth : ℕ
  minSplit : ℕ := 10
  minLeaf : ℕ := 5
  seed : ℕ
  minSplit_pos : 0 < minSplit := by decide

/-- What the construction of the trees carries along. -/
structure FitState (σ K : Type) where
  rng : σ
  imp : List K

structure Forest (K : Type) where
  trees : List (Tree K)
  importances : List K

/-- The sum of squared errors of every cut of the sorted labels, `none` where the cut is not
admissible. -/
def cutErrors (xs ys : List K) (minLeaf : ℕ) : List (Option K) :=
  let n := ys.length
  let csum := cumsum ys
  let csum2 := cumsum (ys.map fun y => y * y)
  let tot := csum.getLastD 0
  let tot2 := csum2.getLastD 0
  (List.range (n - 1)).map fun k =>
    let ln := k + 1
    let rn := n - ln
    let ls := csum.getD k 0
    let rs := tot - ls
    let sseL := csum2.getD k 0 - ls * ls / ln
    let sseR := (tot2 - csum2.getD k 0) - rs * rs / rn
    if xs.getD (k + 1) 0 = xs.getD k 0 ∨ ln < minLeaf ∨ rn < minLeaf then none
    else some (sseL + sseR)

/-- `np.argmin`: the first of the least entries, with `none` for infinity. -/
def argmin (costs : List (Option K)) : Option (ℕ × K) :=
  costs.zipIdx.foldl
    (fun best entry =>
      match best, entry with
      | best, (none, _) => best
      | none, (some cost, k) => some (k, cost)
      | some best, (some cost, k) => if cost < best.2 then some (k, cost) else some best)
    none

/-- `_best_split`: the best gain, with the feature and the threshold behind it. -/
def bestSplit (X : List (List K)) (y : List K) (idx feats : List ℕ) (minLeaf : ℕ) :
    Option (ℕ × K) × K :=
  let yv := idx.map fun i => y.getD i 0
  let parent := (yv.map fun y => (y - mean yv) ^ 2).sum
  feats.foldl
    (fun best f =>
      let xv := idx.map fun i => (X.getD i []).getD f 0
      let sorted := (xv.zip yv).mergeSort fun a b => a.1 ≤ b.1
      let xs := sorted.map Prod.fst
      match argmin (cutErrors xs (sorted.map Prod.snd) minLeaf) with
      | none => best
      | some (k, sse) =>
        let gain := parent - sse
        let threshold := (xs.getD k 0 + xs.getD (k + 1) 0) / ((2 : ℕ) : K)
        if best.2 < gain then (some (f, threshold), gain) else best)
    (none, 0)

/-- `_fit_tree` for `P` features, where `depth` is what is left up to `max_depth`. -/
def fitTree (rng : Rng σ) (params : ForestParams) (P : ℕ) (X : List (List K)) (y : List K)
    (mf : ℕ) : ℕ → List ℕ → FitState σ K → Tree K × FitState σ K
  | 0, idx, st => (.leaf (nanMean (idx.map fun i => y.getD i 0)), st)
  | depth + 1, idx, st =>
    let yv := idx.map fun i => y.getD i 0
    let leaf := Tree.leaf (nanMean yv)
    -- `yv.var()`, only looked at when there are rows
    let var := mean (yv.map fun y => (y - mean yv) ^ 2)
    if idx.length < params.minSplit ∨ var < 1 / ((10 : ℕ) : K) ^ 12 then (leaf, st)
    else
      let (feats, draws) := rng.choice st.rng P mf
      let st := { st with rng := draws }
      match bestSplit X y idx feats params.minLeaf with
      | (none, _) => (leaf, st)
      | (some (bf, bt), gain) =>
        if gain ≤ 0 then (leaf, st)
        else
          -- the gain counts even when the children turn out too small
          let st := { st with imp := st.imp.modify bf fun total => total + gain }
          let li := idx.filter fun i => (X.getD i []).getD bf 0 ≤ bt
          let ri := idx.filter fun i => ¬ (X.getD i []).getD bf 0 ≤ bt
          if li.length < params.minLeaf ∨ ri.length < params.minLeaf then (leaf, st)
          else
            let (L, st) := fitTree rng params P X y mf depth li st
            let (R, st) := fitTree rng params P X y mf depth ri st
            (.node bf bt L R, st)

/-- `_pred_tree`. -/
def predTree : Tree K → List K → Option K
  | .leaf v, _ => v
  | .node f t L R, row => if row.getD f 0 ≤ t then predTree L row else predTree R row

/-- `RandomForest.fit` on a matrix with `P` columns. -/
def fit (rng : Rng σ) (params : ForestParams) (P : ℕ) (X : List (List K)) (y : List K) : Forest K :=
  let mf := max 1 (P / 3)
  -- the trees share the generator and the importances
  let start : List (Tree K) × FitState σ K :=
    ([], { rng := rng.defaultRng params.seed, imp := List.replicate P 0 })
  let (trees, st) := (List.range params.nEstimators).foldl
    (fun acc _ =>
      let (boot, draws) := rng.integers acc.2.rng X.length X.length
      let (tree, st) := fitTree rng params P X y mf params.maxDepth boot { acc.2 with rng := draws }
      (acc.1 ++ [tree], st))
    start
  let s := st.imp.sum
  { trees, importances := if 0 < s then st.imp.map fun total => total / s else st.imp }

/-- `RandomForest.predict`: a tree without a value makes the mean NaN. -/
def predict (forest : Forest K) (X : List (List K)) : List (Option K) :=
  X.map fun row => (forest.trees.mapM fun tree => predTree tree row).bind nanMean

/-- `pos`: the sign of the prediction, where zero counts as positive and NaN stays. -/
def positions (pred : List (Option K)) : List (Option K) :=
  pred.map (Option.map fun value => if value < 0 then -1 else 1)

namespace Features

/-- The forest of `predict_returns`: fitted to the training rows, with the twelve features. -/
def forest (rng : Rng σ) (params : ForestParams) (F : Features K) : Forest K :=
  fit rng params 12 (F.Xv.take F.split) (F.yv.take F.split)

/-- The predictions for the test rows. -/
def pred (rng : Rng σ) (params : ForestParams) (F : Features K) : List (Option K) :=
  predict (F.forest rng params) (F.Xv.drop F.split)

/-- The positions in the test rows. -/
def pos (rng : Rng σ) (params : ForestParams) (F : Features K) : List (Option K) :=
  positions (F.pred rng params)

end Features

end Forest

end TradingSimulator.ReturnPredictor
