import Mathlib.Algebra.BigOperators.Group.List.Basic
import Mathlib.Algebra.Order.Field.Rat
import Mathlib.Tactic.FieldSimp
import Mathlib.Tactic.Linarith
import Mathlib.Tactic.Ring

/-!
# The sentiment of a sentence

`_score_sentence` (`app/quant/sentiment.py`) adds up the polarities of the words of its lexicons,
weighted where an intensifier stands before, and divides by the number of the words, not by their
weights. So the result is no mean once intensified words are too many: it stays between `-1` and `1`
exactly when those on either side are balanced by words on the other (`scoreSentence_iff`).
-/

namespace TradingSimulator.Sentiment

/-! ### The lexicons -/

/-- `_POS`. -/
def POS : List String :=
  ["growth", "grew", "beat", "beats", "exceeded", "exceed", "strong", "strength", "record",
    "robust", "momentum", "upgrade", "raised", "raise", "outperform", "accelerate", "accelerating",
    "expansion", "expanding", "profitability", "profitable", "tailwind", "tailwinds", "improved",
    "improving", "improvement", "gains", "gain", "surged", "surge", "rose", "increase",
    "increased", "increasing", "higher", "upside", "confident", "confidence", "optimistic",
    "favorable", "efficiencies", "efficient", "margin", "margins", "demand", "leadership",
    "innovative", "innovation", "outstanding", "exceptional", "solid", "resilient", "resilience",
    "delivered", "delivering", "opportunity", "opportunities", "expanded", "winning", "wins",
    "success", "successful", "guidance"]

/-- `_NEG`. -/
def NEG : List String :=
  ["decline", "declined", "declining", "miss", "missed", "weak", "weakness", "headwind",
    "headwinds", "litigation", "downgrade", "cut", "cuts", "lowered", "lower", "impairment",
    "slowdown", "slowing", "uncertainty", "uncertain", "restructuring", "shortfall", "loss",
    "losses", "fell", "drop", "dropped", "decrease", "decreased", "decreasing", "pressure",
    "pressured", "challenging", "challenges", "challenge", "disappointing", "disappoint",
    "concern", "concerns", "concerned", "soft", "softness", "deteriorate", "deteriorating",
    "volatile", "volatility", "risk", "risks", "warning", "warned", "delay", "delays", "delayed",
    "writedown", "default", "bankruptcy", "downturn", "recession", "underperform", "negative",
    "adverse", "contraction", "contracting", "layoffs", "headcount"]

/-- `_INTENSIFIERS`. -/
def INTENSIFIERS : List String :=
  ["significantly", "substantially", "strongly", "materially", "considerably", "sharply",
    "dramatically", "meaningfully", "very"]

/-- `_NEGATORS`. -/
def NEGATORS : List String :=
  ["not", "no", "never", "without", "lack", "lacks", "lacking", "fails", "fail", "failed",
    "cannot", "neither", "nor", "less"]

/-! ### The score -/

/-- The characters of a token: small letters and the apostrophe, whose code is 39. -/
def isTokenChar (c : Char) : Bool := ('a' ≤ c && c ≤ 'z') || c.toNat = 39

/-- `_tokens`: the longest runs of token letters in the lowered sentence. -/
def tokens (lower : String → String) (sentence : String) : List String :=
  (((lower sentence).toList.splitOnP fun c => !isTokenChar c).filter fun run => run ≠ []).map
    String.ofList

/-- The polarity of a word by itself. -/
def polarity (w : String) : ℤ := if w ∈ POS then 1 else if w ∈ NEG then -1 else 0

/-- There is an intensifier before the token. -/
def isIntensified (toks : List String) (i : ℕ) : Bool :=
  1 ≤ i && (toks[i - 1]?.any fun t => t ∈ INTENSIFIERS)

/-- There is a negator among the three tokens before the token. -/
def isNegated (toks : List String) (i : ℕ) : Bool :=
  ((toks.take i).drop (i - 3)).any fun t => t ∈ NEGATORS

/-- The sums of the loop over the tokens. -/
structure Scores (K : Type) where
  score : K
  posHits : List String
  negHits : List String

/-- What `_score_sentence` returns. -/
structure SentenceScore (K : Type) where
  norm : K
  posHits : List String
  negHits : List String
  nSent : ℕ

section Definitions

variable {K : Type} [Field K]

/-- The body of the loop, for the token `w` at index `i`. -/
def scoreToken (toks : List String) (acc : Scores K) (w : String) (i : ℕ) : Scores K :=
  let pol := polarity w
  if pol = 0 then acc
  else
    -- only the token right before is looked at
    let weight : K := if isIntensified toks i then 1 * (((16 : ℕ) : K) / ((10 : ℕ) : K)) else 1
    let pol := if isNegated toks i then pol * -1 else pol
    -- the word is filed under its polarity after the negation
    { score := acc.score + pol * weight
      posHits := if 0 < pol then acc.posHits ++ [w] else acc.posHits
      negHits := if 0 < pol then acc.negHits else acc.negHits ++ [w] }

/-- The loop. -/
def scoreTokens (toks : List String) : Scores K :=
  toks.zipIdx.foldl (fun acc token => scoreToken toks acc token.1 token.2)
    { score := 0, posHits := [], negHits := [] }

/-- `_score_sentence`. -/
def scoreSentence (lower : String → String) (sentence : String) : SentenceScore K :=
  let acc : Scores K := scoreTokens (tokens lower sentence)
  let nSent := acc.posHits.length + acc.negHits.length
  { norm := if nSent = 0 then 0 else acc.score / nSent
    posHits := acc.posHits
    negHits := acc.negHits
    nSent := nSent }

end Definitions

/-! ### The hits -/

/-- A word of a lexicon in its sentence: its polarity after the negation, and whether it is
intensified. -/
structure Hit where
  positive : Bool
  intensified : Bool
  deriving DecidableEq

/-- The hit at a token, if its word is in a lexicon. -/
def hit (toks : List String) (w : String) (i : ℕ) : Option Hit :=
  if polarity w = 0 then none
  else some {
    positive := xor (w ∈ POS) (isNegated toks i)
    intensified := isIntensified toks i }

/-- The hits of a sentence. -/
def hits (toks : List String) : List Hit :=
  toks.zipIdx.filterMap fun token => hit toks token.1 token.2

/-- On neither side the intensified hits are too many for those on the other. -/
def IsBalanced (found : List Hit) : Prop :=
  3 * found.count ⟨true, true⟩ ≤ 10 * found.count ⟨false, false⟩ + 13 * found.count ⟨false, true⟩ ∧
    3 * found.count ⟨false, true⟩ ≤ 10 * found.count ⟨true, false⟩ + 13 * found.count ⟨true, true⟩

instance (found : List Hit) : Decidable (IsBalanced found) :=
  inferInstanceAs (Decidable (_ ∧ _))

section Values

variable {K : Type} [Field K]

/-- What a hit adds to the score. -/
def Hit.value (h : Hit) : K :=
  (if h.positive then 1 else -1) *
    if h.intensified then ((16 : ℕ) : K) / ((10 : ℕ) : K) else 1

/-- A token of no lexicon changes nothing, and a hit adds its value and its word. -/
theorem scoreToken_eq (toks : List String) (acc : Scores K) (w : String) (i : ℕ) :
    scoreToken toks acc w i =
      match hit toks w i with
      | none => acc
      | some h => {
          score := acc.score + h.value
          posHits := if h.positive then acc.posHits ++ [w] else acc.posHits
          negHits := if h.positive then acc.negHits else acc.negHits ++ [w] } := by
  -- a positive word, a negative one, or none; negated or not, intensified or not
  by_cases hpos : w ∈ POS
  · have hpolarity : polarity w = 1 := if_pos hpos
    cases hnegated : isNegated toks i <;> cases hintensified : isIntensified toks i <;>
      simp [scoreToken, hit, Hit.value, hpolarity, hpos, hnegated, hintensified]
  · by_cases hneg : w ∈ NEG
    · have hpolarity : polarity w = -1 := by
        rw [polarity, if_neg hpos, if_pos hneg]
      cases hnegated : isNegated toks i <;> cases hintensified : isIntensified toks i <;>
        simp [scoreToken, hit, Hit.value, hpolarity, hpos, hnegated, hintensified]
    · have hpolarity : polarity w = 0 := by
        rw [polarity, if_neg hpos, if_neg hneg]
      simp [scoreToken, hit, hpolarity]

/-- The loop adds up the values of the hits, and sorts their words by the sign. -/
theorem foldl_scoreToken (toks : List String) (rest : List (String × ℕ)) (acc : Scores K) :
    let found := rest.filterMap fun token => hit toks token.1 token.2
    let result := rest.foldl (fun acc token => scoreToken toks acc token.1 token.2) acc
    result.score = acc.score + (found.map Hit.value).sum ∧
      result.posHits.length = acc.posHits.length + found.countP (fun h => h.positive) ∧
      result.negHits.length = acc.negHits.length + found.countP fun h => !h.positive := by
  induction rest generalizing acc with
  | nil => simp
  | cons token rest ih =>
    obtain ⟨w, i⟩ := token
    dsimp only [List.foldl_cons]
    obtain ⟨hscore, hpos, hneg⟩ := ih (scoreToken toks acc w i)
    rw [hscore, hpos, hneg, scoreToken_eq]
    cases hhit : hit toks w i with
    | none => simp [hhit]
    | some h =>
      obtain ⟨positive, intensified⟩ := h
      -- the word is filed on the side of its sign
      cases positive <;>
        simp [hhit, add_assoc, Nat.add_comm]

/-- Ten times the values of the hits, by their kinds. -/
theorem sum_value [CharZero K] (found : List Hit) :
    ((10 : ℕ) : K) * (found.map Hit.value).sum =
      ((10 * found.count ⟨true, false⟩ + 16 * found.count ⟨true, true⟩ : ℕ) : K) -
        ((10 * found.count ⟨false, false⟩ + 16 * found.count ⟨false, true⟩ : ℕ) : K) := by
  have hten : ((10 : ℕ) : K) ≠ 0 := Nat.cast_ne_zero.mpr (by decide)
  induction found with
  | nil => simp
  | cons h found ih =>
    obtain ⟨positive, intensified⟩ := h
    -- each of the four kinds adds to its own count
    rw [List.map_cons, List.sum_cons, mul_add, ih]
    simp only [List.count_cons, Hit.value, Hit.mk.injEq, beq_iff_eq]
    cases positive <;> cases intensified <;> push_cast <;> simp <;> ring

/-- The hits of either side, by their kinds. -/
theorem countP_eq_count (found : List Hit) :
    found.countP (fun h => h.positive) = found.count ⟨true, false⟩ + found.count ⟨true, true⟩ ∧
      found.countP (fun h => !h.positive) =
        found.count ⟨false, false⟩ + found.count ⟨false, true⟩ := by
  induction found with
  | nil => simp
  | cons h found ih =>
    obtain ⟨positive, intensified⟩ := h
    simp only [List.countP_cons, List.count_cons, ih.1, ih.2]
    cases positive <;> cases intensified <;> simp <;> omega

end Values

/-! ### The polarity of a sentence -/

/-- Every word of a lexicon is a hit. -/
theorem length_hits (toks : List String) :
    (hits toks).length = toks.countP fun w => w ∈ POS ∨ w ∈ NEG := by
  have hisSome : ∀ (w : String) (i : ℕ), (hit toks w i).isSome = decide (w ∈ POS ∨ w ∈ NEG) := by
    intro w i
    by_cases hpos : w ∈ POS
    · simp [hit, polarity, hpos]
    · by_cases hneg : w ∈ NEG <;> simp [hit, polarity, hpos, hneg]
  have hwords : (toks.zipIdx.map Prod.fst).countP (fun w => decide (w ∈ POS ∨ w ∈ NEG)) =
      toks.countP fun w => w ∈ POS ∨ w ∈ NEG := by
    rw [List.zipIdx_map_fst]
  rw [hits, List.length_filterMap_eq_countP, ← hwords, List.countP_map]
  apply List.countP_congr
  intro token _
  rw [hisSome, Function.comp_apply]

section Polarity

variable {K : Type} [Field K] [LinearOrder K] [IsStrictOrderedRing K]

/-- The score of a sentence is a polarity: between `-1` and `1`, on a side only with a hit there,
and with the number of the words that were found. -/
structure IsPolarity (toks : List String) (s : SentenceScore K) : Prop where
  neg_one_le : -1 ≤ s.norm
  le_one : s.norm ≤ 1
  posHits_ne_nil : 0 < s.norm → s.posHits ≠ []
  negHits_ne_nil : s.norm < 0 → s.negHits ≠ []
  nSent_eq : s.nSent = toks.countP fun w => w ∈ POS ∨ w ∈ NEG

/-- The score by the kinds of the hits. -/
theorem scoreSentence_spec (lower : String → String) (sentence : String) :
    let found := hits (tokens lower sentence)
    let s : SentenceScore K := scoreSentence lower sentence
    s.posHits.length = found.count ⟨true, false⟩ + found.count ⟨true, true⟩ ∧
      s.negHits.length = found.count ⟨false, false⟩ + found.count ⟨false, true⟩ ∧
      s.nSent = s.posHits.length + s.negHits.length ∧
      ((10 : ℕ) : K) * (s.norm * s.nSent) =
        ((10 * found.count ⟨true, false⟩ + 16 * found.count ⟨true, true⟩ : ℕ) : K) -
          ((10 * found.count ⟨false, false⟩ + 16 * found.count ⟨false, true⟩ : ℕ) : K) := by
  intro found s
  obtain ⟨hscore, hpos, hneg⟩ := foldl_scoreToken (K := K) (tokens lower sentence)
    (tokens lower sentence).zipIdx { score := 0, posHits := [], negHits := [] }
  obtain ⟨hpositive, hnegative⟩ := countP_eq_count found
  rw [List.length_nil, Nat.zero_add] at hpos hneg
  have hposHits : s.posHits.length = found.count ⟨true, false⟩ + found.count ⟨true, true⟩ :=
    hpos.trans hpositive
  have hnegHits : s.negHits.length = found.count ⟨false, false⟩ + found.count ⟨false, true⟩ :=
    hneg.trans hnegative
  have hnSent : s.nSent = s.posHits.length + s.negHits.length := rfl
  refine ⟨hposHits, hnegHits, hnSent, ?_⟩
  by_cases hnone : s.nSent = 0
  · -- without a hit there is nothing to add up
    obtain ⟨hplain, hstrong⟩ : found.count ⟨true, false⟩ = 0 ∧ found.count ⟨true, true⟩ = 0 := by
      omega
    obtain ⟨hplain', hstrong'⟩ :
        found.count ⟨false, false⟩ = 0 ∧ found.count ⟨false, true⟩ = 0 := by
      omega
    rw [hnone, hplain, hstrong, hplain', hstrong', Nat.cast_zero, mul_zero, mul_zero, sub_self]
  · have hnorm : s.norm = (scoreTokens (tokens lower sentence)).score / s.nSent := if_neg hnone
    have hsum : (scoreTokens (tokens lower sentence)).score = (found.map Hit.value).sum :=
      hscore.trans (zero_add _)
    rw [hnorm, div_mul_cancel₀ _ (Nat.cast_ne_zero.mpr hnone), hsum, sum_value found]

/-- A quotient between natural numbers is compared by them. -/
theorem quotient_bounds {x : K} {n P Q : ℕ} (hn : n ≠ 0)
    (h : ((10 : ℕ) : K) * (x * n) = (P : K) - Q) :
    (x ≤ 1 ↔ P ≤ 10 * n + Q) ∧ (-1 ≤ x ↔ Q ≤ P + 10 * n) ∧ (0 < x ↔ Q < P) ∧ (x < 0 ↔ P < Q) := by
  have hpos : (0 : K) < ((10 * n : ℕ) : K) := Nat.cast_pos.mpr (by omega)
  have hscaled : x * ((10 * n : ℕ) : K) = (P : K) - Q := by
    rw [← h]
    push_cast
    ring
  -- each bound is multiplied by the positive denominator
  refine ⟨?_, ?_, ?_, ?_⟩
  · rw [← mul_le_mul_iff_left₀ hpos, hscaled, one_mul, sub_le_iff_le_add]
    exact_mod_cast Iff.rfl
  · rw [← mul_le_mul_iff_left₀ hpos, hscaled, neg_one_mul, neg_le_sub_iff_le_add]
    exact_mod_cast Iff.rfl
  · rw [← mul_lt_mul_iff_left₀ hpos, hscaled, zero_mul, sub_pos]
    exact Nat.cast_lt
  · rw [← mul_lt_mul_iff_left₀ hpos, hscaled, zero_mul, sub_neg]
    exact Nat.cast_lt

/-- The number of the hits is the number of the words of the lexicons. -/
theorem count_eq_countP (toks : List String) :
    (hits toks).count ⟨true, false⟩ + (hits toks).count ⟨true, true⟩ +
        ((hits toks).count ⟨false, false⟩ + (hits toks).count ⟨false, true⟩) =
      toks.countP fun w => w ∈ POS ∨ w ∈ NEG := by
  obtain ⟨hpositive, hnegative⟩ := countP_eq_count (hits toks)
  rw [← hpositive, ← hnegative, ← length_hits,
    List.length_eq_countP_add_countP (fun h : Hit => h.positive)]
  simp

/-- A sentence has a polarity exactly when its intensified hits are balanced. -/
theorem scoreSentence_iff (lower : String → String) (sentence : String) :
    IsPolarity (tokens lower sentence) (scoreSentence lower sentence : SentenceScore K) ↔
      IsBalanced (hits (tokens lower sentence)) := by
  obtain ⟨hpos, hneg, hnSent, hnorm⟩ := scoreSentence_spec (K := K) lower sentence
  have hcount := count_eq_countP (tokens lower sentence)
  generalize hits (tokens lower sentence) = found at *
  by_cases hnone : (scoreSentence lower sentence : SentenceScore K).nSent = 0
  · -- a sentence without a hit has the polarity zero, and nothing in it to balance
    have hzero : (scoreSentence lower sentence : SentenceScore K).norm = 0 := if_pos hnone
    refine iff_of_true ⟨?_, ?_, ?_, ?_, ?_⟩ ?_
    · rw [hzero]
      exact neg_one_lt_zero.le
    · rw [hzero]
      exact zero_le_one
    · rw [hzero]
      exact fun h => absurd h (lt_irrefl 0)
    · rw [hzero]
      exact fun h => absurd h (lt_irrefl 0)
    · omega
    · constructor <;> omega
  · obtain ⟨hle, hge, hpositive, hnegative⟩ := quotient_bounds hnone hnorm
    constructor
    -- the bounds on the quotient are inequalities between the counts, times ten
    · intro h
      have hupper := hle.mp h.le_one
      have hlower := hge.mp h.neg_one_le
      constructor <;> omega
    · rintro ⟨hupper, hlower⟩
      -- a sign needs a hit of that side, balanced or not
      refine ⟨hge.mpr (by omega), hle.mpr (by omega), fun h => ?_, fun h => ?_, by omega⟩
      · have := hpositive.mp h
        exact List.ne_nil_of_length_pos (by omega)
      · have := hnegative.mp h
        exact List.ne_nil_of_length_pos (by omega)

end Polarity

/-- A sentence with words of both kinds, an intensifier and a negation. -/
theorem scoreSentence_iff_mixed :
    IsPolarity (tokens String.toLower "Very strong growth, no risk.")
        (scoreSentence String.toLower "Very strong growth, no risk." : SentenceScore ℚ) ↔
      IsBalanced (hits (tokens String.toLower "Very strong growth, no risk.")) :=
  scoreSentence_iff String.toLower "Very strong growth, no risk."

/-- One intensified word alone. -/
theorem not_isPolarity_veryStrong :
    ¬ ∀ sentence, IsPolarity (tokens String.toLower sentence)
      (scoreSentence String.toLower sentence : SentenceScore ℚ) := by
  intro h
  have hnorm : (scoreSentence String.toLower "very strong" : SentenceScore ℚ).norm = 8 / 5 := by
    decide +kernel
  have hle := (h "very strong").le_one
  rw [hnorm] at hle
  exact absurd hle (by norm_num)

end TradingSimulator.Sentiment
