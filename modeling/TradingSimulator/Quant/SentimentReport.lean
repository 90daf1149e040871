import TradingSimulator.Library.Counters
import TradingSimulator.Library.Rounding
import TradingSimulator.Library.TextCuts
import TradingSimulator.Quant.EventStudy
import TradingSimulator.Quant.Sentiment
import Mathlib.Analysis.SpecialFunctions.Artanh

/-!
# The sentiment report

`analyze_sentiment` (`app/quant/sentiment.py`) cuts a transcript into sentences behind their end
marks, scores them one by one, and reports counts, keywords, highlights and a score with its label
and its confidence. Texts are lists of code points, and the arithmetic is exact.

The sentences of a text come back when they are joined and cut again (`sentences_spec`), and every
part of a report agrees with the others (`analyzeSentiment_spec`).
-/

namespace TradingSimulator.Sentiment

open Counters EventStudy Rounding TextCuts

/-! ### Sentences -/

/-- The white space of `str.strip` and of `\s`. -/
def isSpace (c : Char) : Bool :=
  (9 ≤ c.toNat && c.toNat ≤ 13) || (28 ≤ c.toNat && c.toNat ≤ 32) ||
    (0x2000 ≤ c.toNat && c.toNat ≤ 0x200a) ||
    [0x85, 0xa0, 0x1680, 0x2028, 0x2029, 0x202f, 0x205f, 0x3000].contains c.toNat

/-- The characters behind which `_sentences` cuts. -/
def isEndMark (c : Char) : Bool := c = '.' || c = '!' || c = '?'

/-- `str.strip`. -/
def stripped (text : String) : List Char := strip isSpace text.toList

/-- `parts`, stripped. -/
def parts (text : String) : List (List Char) :=
  (split isEndMark isSpace (stripped text)).map (strip isSpace)

/-- `_sentences`. -/
def sentences (text : String) : List String :=
  ((parts text).filter fun p => 3 < p.length).map String.ofList

theorem not_isSpace_of_isEndMark (c : Char) (h : isEndMark c) : ¬ isSpace c := by
  simp only [isEndMark, Bool.or_eq_true, decide_eq_true_eq] at h
  obtain (rfl | rfl) | rfl := h <;> decide

/-- The parts are the pieces of the stripped text: there are no spaces at their ends. -/
theorem parts_eq (text : String) : parts text = split isEndMark isSpace (stripped text) ∧
    (stripped text ≠ [] → IsProper isEndMark isSpace (parts text)) := by
  have htrimmed : IsTrimmed isSpace (stripped text) := isTrimmed_strip _
  by_cases hne : stripped text = []
  · have hparts : parts text = split isEndMark isSpace (stripped text) := by
      rw [parts, hne]
      rfl
    exact ⟨hparts, fun h => absurd hne h⟩
  · have hproper := (isCut_iff.mpr rfl).isProper not_isSpace_of_isEndMark htrimmed hne
    have hparts : parts text = split isEndMark isSpace (stripped text) := by
      rw [parts, List.map_congr_left fun p hp => (hproper.trimmed p hp).strip_eq, List.map_id']
    exact ⟨hparts, fun _ => hparts ▸ hproper⟩

/-- The sentences of a text as lists. -/
theorem map_toList_sentences (text : String) :
    (sentences text).map String.toList = (parts text).filter fun p => 3 < p.length := by
  rw [sentences, List.map_map]
  exact (List.map_congr_left fun p _ => String.toList_ofList).trans (List.map_id' _)

/-- Joined by a blank, the sentences would be cut at the same places. -/
theorem isProper_sentences (text : String) :
    IsProper isEndMark isSpace ((sentences text).map String.toList) := by
  rw [map_toList_sentences]
  by_cases hne : stripped text = []
  · -- the one piece of the empty text is too short
    have hnil : (parts text).filter (fun p => 3 < p.length) = [] := by
      rw [parts, hne]
      rfl
    rw [hnil]
    constructor <;> simp
  · exact ((parts_eq text).2 hne).sublist List.filter_sublist

/-- The sentences of a text: what stands between the ends of two sentences, except where that is too
short. -/
structure AreSentencesOf (text : String) (ss : List String) : Prop where
  /-- They are pieces of the text, and whatever is not in them is white space or too short. -/
  cut : ∃ ps, IsCut isEndMark isSpace (stripped text) ps ∧
    ss.map String.toList = ps.filter fun p => 3 < p.length
  proper : IsProper isEndMark isSpace (ss.map String.toList)
  /-- Joined by a blank and cut again they come back. -/
  again : sentences (" ".intercalate ss) = ss

/-- What `_sentences` returns are the sentences of the text. -/
theorem sentences_spec (text : String) : AreSentencesOf text (sentences text) := by
  have hproper := isProper_sentences text
  refine ⟨⟨parts text, isCut_iff.mpr (parts_eq text).1.symm, map_toList_sentences text⟩,
    hproper, ?_⟩
  by_cases hnil : sentences text = []
  · rw [hnil]
    rfl
  · have hne : (sentences text).map String.toList ≠ [] := by
      rwa [Ne, List.map_eq_nil_iff]
    -- nothing is stripped from the joined sentences, and the blanks are the only gaps
    have hstripped : stripped (" ".intercalate (sentences text)) =
        [' '].intercalate ((sentences text).map String.toList) := by
      rw [stripped, String.toList_intercalate]
      exact (isTrimmed_intercalate hproper ' ').strip_eq
    have hparts : parts (" ".intercalate (sentences text)) =
        (sentences text).map String.toList := by
      rw [(parts_eq _).1, hstripped]
      exact split_intercalate hproper hne rfl
    have hlong : ∀ p ∈ (sentences text).map String.toList, decide (3 < p.length) = true := by
      rw [map_toList_sentences]
      exact fun p hp => (List.mem_filter.mp hp).2
    rw [sentences, hparts, List.filter_eq_self.mpr hlong, List.map_map]
    exact (List.map_congr_left fun s _ => String.ofList_toList).trans (List.map_id' _)

/-! ### The report -/

/-- `_SAMPLES`. -/
def SAMPLES : List String :=
  ["We delivered another record quarter with revenue up significantly year over year. " ++
      "Demand remained strong across all segments and margins expanded meaningfully. " ++
      "We raised our full-year guidance on robust momentum and improving profitability. " ++
      "Management is confident the favorable trends and operating efficiencies will continue. " ++
      "There were some headwinds in supply chain, but overall execution was outstanding.",
    "Results this quarter were disappointing as revenue declined and we missed expectations. " ++
      "We faced significant headwinds from softening demand and pricing pressure. " ++
      "Margins contracted and we lowered our guidance amid growing uncertainty. " ++
      "Management announced restructuring and layoffs to address the slowdown. " ++
      "While the environment is challenging, we remain focused on long-term opportunities.",
    "Performance was mixed this quarter. " ++
      "Revenue grew modestly while margins were roughly flat. " ++
      "We saw strength in our core franchise but weakness in newer segments. " ++
      "Guidance was maintained as we balance opportunities against macro uncertainty. " ++
      "The team delivered solid execution despite some headwinds. " ++
      "We remain cautiously optimistic about the path ahead."]

/-- What is taken from Python, numpy and hashlib: the case of letters, `_seed`, the generator that
is made from a seed, and the functions on numbers. -/
structure Environment (K : Type) where
  lower : String → String
  upper : String → String
  seed : String → ℕ
  draws : ℕ → Draws K
  tanh : K → K
  sqrt : K → K
  argsort : (Fin nEvents → K) → Fin nEvents → Fin nEvents

inductive Source where
  | sample
  | custom
  deriving DecidableEq

inductive Label where
  | positive
  | neutral
  | negative
  deriving DecidableEq

/-- What `analyze_sentiment` returns with the status `success`. -/
structure Report (K : Type) where
  symbol : String
  source : Source
  transcript : String
  score : K
  label : Label
  confidence : K
  nSentences : ℕ
  posSentences : ℕ
  neuSentences : ℕ
  negSentences : ℕ
  distribution : List (Label × ℕ)
  timeline : List (ℕ × K)
  keywordsPositive : List (String × ℕ)
  keywordsNegative : List (String × ℕ)
  highlightsPositive : List String
  highlightsNegative : List String
  eventStudy : Study K

/-- The variables of the loop over the sentences. -/
structure Progress (K : Type) where
  timeline : List (ℕ × K)
  posWords : List (String × ℕ)
  negWords : List (String × ℕ)
  nPos : ℕ
  nNeu : ℕ
  nNeg : ℕ
  total : K
  highlightsPos : List String
  highlightsNeg : List String

section Definitions

variable {K : Type} [Field K]

/-- `POS_THRESH`. -/
def POS_THRESH : K := ((6 : ℕ) : K) / ((100 : ℕ) : K)

/-- `NEG_THRESH`. -/
def NEG_THRESH : K := -(((6 : ℕ) : K) / ((100 : ℕ) : K))

/-- The default of `beta` in `_event_study`. -/
def defaultBeta : K := ((35 : ℕ) : K) / ((1000 : ℕ) : K)

variable [LinearOrder K] [FloorRing K] (env : Environment K)

/-- The start of the loop. -/
def Progress.start : Progress K where
  timeline := []
  posWords := []
  negWords := []
  nPos := 0
  nNeu := 0
  nNeg := 0
  total := 0
  highlightsPos := []
  highlightsNeg := []

/-- The body of the loop, for the sentence `s` at index `i`. -/
def scoreStep (acc : Progress K) (s : String) (i : ℕ) : Progress K :=
  let found : SentenceScore K := scoreSentence env.lower s
  let acc := { acc with
    total := acc.total + found.norm
    posWords := found.posHits.foldl increment acc.posWords
    negWords := found.negHits.foldl increment acc.negWords }
  let acc :=
    -- the first three sentences of a side are highlights
    if POS_THRESH < found.norm then
      { acc with
        nPos := acc.nPos + 1
        highlightsPos :=
          if acc.highlightsPos.length < 3 then acc.highlightsPos ++ [s] else acc.highlightsPos }
    else if found.norm < NEG_THRESH then
      { acc with
        nNeg := acc.nNeg + 1
        highlightsNeg :=
          if acc.highlightsNeg.length < 3 then acc.highlightsNeg ++ [s] else acc.highlightsNeg }
    else { acc with nNeu := acc.nNeu + 1 }
  { acc with timeline := acc.timeline ++ [(i + 1, roundTo 3 found.norm)] }

/-- The loop. -/
def scoreSentences (sents : List String) : Progress K :=
  sents.zipIdx.foldl (fun acc sentence => scoreStep env acc sentence.1 sentence.2) Progress.start

/-- `label`, of a score. -/
def labelOf (score : K) : Label :=
  if POS_THRESH < score then .positive else if score < NEG_THRESH then .negative else .neutral

/-- `confidence`, of a score. -/
def confidenceOf (score : K) : K :=
  roundTo 1 (min ((99 : ℕ) : K) (((40 : ℕ) : K) + |score| * ((60 : ℕ) : K)))

/-- The symbol, with its default. -/
def symbolOf (symbol : Option String) : String :=
  -- the empty symbol is replaced as well
  env.upper (if (symbol.getD "").isEmpty then "AAPL" else symbol.getD "")

/-- The text of a request, if it is long enough, or a sample. -/
def transcriptOf (symbol : String) (text : Option String) : Source × String :=
  match text with
  | none => (.sample, SAMPLES.getD (env.seed symbol % SAMPLES.length) "")
  | some text =>
    if (stripped text).length < 20 then
      (.sample, SAMPLES.getD (env.seed symbol % SAMPLES.length) "")
    else (.custom, text)

/-- The answer of `analyze_sentiment` with the status `success`. -/
def reportOf (symbol : String) (source : Source) (text : String) : Report K :=
  let sents := sentences text
  let acc := scoreSentences env sents
  let doc := acc.total / sents.length
  let score := env.tanh (doc * ((3 : ℕ) : K))
  { symbol := symbol
    source := source
    transcript := text
    score := roundTo 3 score
    label := labelOf score
    confidence := confidenceOf score
    nSentences := sents.length
    posSentences := acc.nPos
    neuSentences := acc.nNeu
    negSentences := acc.nNeg
    distribution := [(.positive, acc.nPos), (.neutral, acc.nNeu), (.negative, acc.nNeg)]
    timeline := acc.timeline
    keywordsPositive := mostCommon 8 acc.posWords
    keywordsNegative := mostCommon 8 acc.negWords
    highlightsPositive := acc.highlightsPos
    highlightsNegative := acc.highlightsNeg
    eventStudy := eventStudy defaultBeta (env.draws (env.seed symbol)) env.sqrt env.argsort }

/-- `analyze_sentiment`: `none` for the status `empty`. -/
def analyzeSentiment (symbol text : Option String) : Option (Report K) :=
  let symbol := symbolOf env symbol
  let (source, text) := transcriptOf env symbol text
  -- a long text can have no sentence, since short parts are left out
  if (sentences text).isEmpty then none else some (reportOf env symbol source text)

end Definitions

/-! ### The samples -/

/-- A text has a sentence if its first letters, more than three, stay together. -/
theorem sentences_ne_nil {text : String} {xs rest : List Char} (htext : text.toList = xs ++ rest)
    (hlength : 3 < xs.length) (htrimmed : IsTrimmed isSpace xs)
    (hwhole : IsWhole isEndMark isSpace xs) : sentences text ≠ [] := by
  have hne : xs ≠ [] := List.ne_nil_of_length_pos (by omega)
  obtain ⟨rest', hstrip⟩ := exists_strip_append htrimmed hne rest
  have hsplit : split isEndMark isSpace (xs ++ rest') =
      pieces isEndMark isSpace (some xs) rest' := pieces_append hwhole rest'
  -- the first piece begins with the beginning of the text
  obtain ⟨p, hp, hprefix⟩ : ∃ p ∈ pieces isEndMark isSpace (some xs) rest', xs <+: p :=
    exists_prefix_mem_pieces xs rest'
  have hmem : p ∈ parts text := by
    rwa [(parts_eq text).1, stripped, htext, hstrip, hsplit]
  have hlong : 3 < p.length := hlength.trans_le hprefix.length_le
  have hfilter : p ∈ (parts text).filter fun p => 3 < p.length :=
    List.mem_filter.mpr ⟨hmem, decide_eq_true hlong⟩
  exact List.ne_nil_of_mem (List.mem_map_of_mem hfilter)

/-- The beginnings of the samples. -/
theorem exists_beginning {text : String} (h : text ∈ SAMPLES) :
    ∃ xs ∈ [['W', 'e', ' ', 'd'], ['R', 'e', 's', 'u'], ['P', 'e', 'r', 'f']], ∃ rest,
      text.toList = xs ++ rest := by
  have hfirst : ∀ (first : String) (xs others : List Char), first.toList.take 4 = xs →
      ∃ rest, first.toList ++ others = xs ++ rest := by
    rintro first xs others rfl
    exact ⟨first.toList.drop 4 ++ others, by rw [← List.append_assoc, List.take_append_drop]⟩
  revert text
  -- only the first literal of a sample is looked at
  simp only [SAMPLES, List.forall_mem_cons, String.toList_append, List.append_assoc]
  refine ⟨⟨_, .head _, hfirst _ _ _ ?_⟩, ⟨_, .tail _ (.head _), hfirst _ _ _ ?_⟩,
    ⟨_, .tail _ (.tail _ (.head _)), hfirst _ _ _ ?_⟩, by simp⟩
  all_goals decide +kernel

theorem sample_mem (n : ℕ) : SAMPLES.getD (n % SAMPLES.length) "" ∈ SAMPLES := by
  have hlt : n % SAMPLES.length < SAMPLES.length := Nat.mod_lt n (by decide)
  rw [List.getD_eq_getElem?_getD, List.getElem?_eq_getElem hlt, Option.getD_some]
  exact List.getElem_mem hlt

/-- Every sample has sentences. -/
theorem sentences_sample {text : String} (h : text ∈ SAMPLES) : sentences text ≠ [] := by
  obtain ⟨xs, hxs, rest, htext⟩ := exists_beginning h
  have hgood : 3 < xs.length ∧ IsTrimmed isSpace xs ∧ IsWhole isEndMark isSpace xs := by
    simp only [List.mem_cons, List.not_mem_nil, or_false] at hxs
    rcases hxs with rfl | rfl | rfl
    all_goals
      refine ⟨by decide, ⟨by simp [isSpace], by simp [isSpace]⟩, ?_⟩
      simp [IsWhole, isEndMark]
  exact sentences_ne_nil htext hgood.1 hgood.2.1 hgood.2.2

/-! ### The loop -/

section Loop

variable {K : Type} [Field K] [LinearOrder K] [FloorRing K] (env : Environment K)

/-- `norm`, of a sentence. -/
def norm (s : String) : K := (scoreSentence env.lower s : SentenceScore K).norm

/-- `ph`, of a sentence. -/
def posHits (s : String) : List String := (scoreSentence env.lower s : SentenceScore K).posHits

/-- `nh`, of a sentence. -/
def negHits (s : String) : List String := (scoreSentence env.lower s : SentenceScore K).negHits

variable [IsStrictOrderedRing K]

omit [FloorRing K] in
theorem neg_thresh_lt : (NEG_THRESH : K) < POS_THRESH := by
  have hpos : (0 : K) < ((6 : ℕ) : K) / ((100 : ℕ) : K) := by positivity
  exact (neg_neg_of_pos hpos).trans hpos

/-- The first entries of a list that goes on with a sentence of a kind, or does not. -/
theorem take_filter_concat (n : ℕ) (p : String → Prop) [DecidablePred p] (ss : List String)
    (s : String) :
    ((ss ++ [s]).filter p).take n =
      if p s ∧ ((ss.filter p).take n).length < n then (ss.filter p).take n ++ [s]
      else (ss.filter p).take n := by
  rw [List.filter_append, List.take_append, List.length_take]
  by_cases hs : p s
  · have hself : [s].filter (fun s => p s) = [s] := by simp [hs]
    rw [hself]
    -- there is room for it, or there are enough already
    by_cases hlt : min n (ss.filter p).length < n
    · have hone : [s].take (n - (ss.filter p).length) = [s] := by
        apply List.take_of_length_le
        rw [List.length_singleton]
        omega
      rw [if_pos ⟨hs, hlt⟩, hone]
    · have hzero : n - (ss.filter p).length = 0 := by omega
      rw [if_neg fun h => hlt h.2, hzero, List.take_zero, List.append_nil]
  · have hnone : [s].filter (fun s => p s) = [] := by simp [hs]
    rw [hnone, if_neg fun h => hs h.1, List.take_nil, List.append_nil]

/-- What one sentence adds: it is positive, negative, or neither. -/
theorem scoreStep_eq (acc : Progress K) (s : String) (i : ℕ) :
    scoreStep env acc s i = {
      timeline := acc.timeline ++ [(i + 1, roundTo 3 (norm env s))]
      posWords := (posHits env s).foldl increment acc.posWords
      negWords := (negHits env s).foldl increment acc.negWords
      nPos := acc.nPos + if POS_THRESH < norm env s then 1 else 0
      nNeu := acc.nNeu + if NEG_THRESH ≤ norm env s ∧ norm env s ≤ POS_THRESH then 1 else 0
      nNeg := acc.nNeg + if norm env s < NEG_THRESH then 1 else 0
      total := acc.total + norm env s
      highlightsPos :=
        if POS_THRESH < norm env s ∧ acc.highlightsPos.length < 3 then acc.highlightsPos ++ [s]
        else acc.highlightsPos
      highlightsNeg :=
        if norm env s < NEG_THRESH ∧ acc.highlightsNeg.length < 3 then acc.highlightsNeg ++ [s]
        else acc.highlightsNeg } := by
  have hnorm : (scoreSentence env.lower s : SentenceScore K).norm = norm env s := rfl
  have hthresh := neg_thresh_lt (K := K)
  rw [scoreStep]
  simp only [hnorm]
  rcases lt_or_ge POS_THRESH (norm env s) with habove | hnotAbove
  · have hnotBelow : ¬ norm env s < NEG_THRESH := not_lt.mpr (hthresh.trans habove).le
    simp [habove, hnotBelow, habove.not_ge, posHits, negHits]
  · rcases lt_or_ge (norm env s) NEG_THRESH with hbelow | hnotBelow
    · simp [hnotAbove.not_gt, hbelow, hbelow.not_ge, posHits, negHits]
    · simp [hnotAbove, hnotBelow, hnotAbove.not_gt, hnotBelow.not_gt, posHits, negHits]

/-- What the loop has found out about the sentences. -/
theorem scoreSentences_eq (ss : List String) :
    scoreSentences env ss = {
      timeline := ss.zipIdx.map fun sentence => (sentence.2 + 1, roundTo 3 (norm env sentence.1))
      posWords := tally (ss.flatMap (posHits env))
      negWords := tally (ss.flatMap (negHits env))
      nPos := ss.countP fun s => POS_THRESH < norm env s
      nNeu := ss.countP fun s => NEG_THRESH ≤ norm env s ∧ norm env s ≤ POS_THRESH
      nNeg := ss.countP fun s => norm env s < NEG_THRESH
      total := (ss.map (norm env)).sum
      highlightsPos := (ss.filter fun s => POS_THRESH < norm env s).take 3
      highlightsNeg := (ss.filter fun s => norm env s < NEG_THRESH).take 3 } := by
  induction ss using List.reverseRecOn with
  | nil => rfl
  | append_singleton ss s ih =>
    have hstep : scoreSentences env (ss ++ [s]) =
        scoreStep env (scoreSentences env ss) s ss.length := by
      rw [scoreSentences, scoreSentences, List.zipIdx_append, List.foldl_append]
      simp
    have hwords : ∀ hits : String → List String,
        (hits s).foldl increment (tally (ss.flatMap hits)) = tally ((ss ++ [s]).flatMap hits) := by
      intro hits
      simp [tally]
    rw [hstep, ih, scoreStep_eq, hwords, hwords, take_filter_concat, take_filter_concat]
    simp [List.zipIdx_append, List.countP_append, List.countP_singleton]

/-! ### Words and scores of a sentence -/

/-- A word counts when one of the lexicons has it. -/
theorem polarity_eq_zero_iff (w : String) : polarity w = 0 ↔ ¬ (w ∈ POS ∨ w ∈ NEG) := by
  rw [polarity]
  split_ifs with hpos hneg
  · simp [hpos]
  · simp [hneg]
  · simp [hpos, hneg]

omit [LinearOrder K] [FloorRing K] [IsStrictOrderedRing K] in
/-- Every word of a lexicon is filed on one of the sides, and no other word is. -/
theorem count_foldl_scoreToken (toks : List String) (rest : List (String × ℕ)) (acc : Scores K)
    (w : String) :
    let result := rest.foldl (fun acc token => scoreToken toks acc token.1 token.2) acc
    result.posHits.count w + result.negHits.count w =
      acc.posHits.count w + acc.negHits.count w +
        (rest.map Prod.fst).countP fun v => v = w ∧ (v ∈ POS ∨ v ∈ NEG) := by
  induction rest generalizing acc with
  | nil => rfl
  | cons token rest ih =>
    obtain ⟨v, i⟩ := token
    dsimp only [List.foldl_cons]
    rw [ih (scoreToken toks acc v i), scoreToken_eq, List.map_cons, List.countP_cons]
    by_cases hlexicon : v ∈ POS ∨ v ∈ NEG
    · -- a negator before the word only decides on which side it is
      have hpolarity : polarity v ≠ 0 := fun h => (polarity_eq_zero_iff v).mp h hlexicon
      rw [hit, if_neg hpolarity]
      dsimp only
      cases xor (decide (v ∈ POS)) (isNegated toks i) <;>
        simp [List.count_append, List.count_singleton, hlexicon] <;> omega
    · rw [hit, if_pos ((polarity_eq_zero_iff v).mpr hlexicon)]
      simp [hlexicon]

omit [LinearOrder K] [FloorRing K] [IsStrictOrderedRing K] in
/-- An occurrence of a word of the lexicons is counted on one side, and on one only. -/
theorem count_hits (s w : String) :
    (posHits env s).count w + (negHits env s).count w =
      if w ∈ POS ∨ w ∈ NEG then (tokens env.lower s).count w else 0 := by
  have hloop := count_foldl_scoreToken (K := K) (tokens env.lower s)
    (tokens env.lower s).zipIdx { score := 0, posHits := [], negHits := [] } w
  rw [List.zipIdx_map_fst] at hloop
  refine hloop.trans ?_
  rw [List.count_nil, Nat.zero_add, List.count]
  split_ifs with hw
  · refine List.countP_congr fun v _ => ?_
    simp only [decide_eq_true_eq, beq_iff_eq, and_iff_left_iff_imp]
    rintro rfl
    exact hw
  · refine List.countP_eq_zero.mpr fun v _ hv => hw ?_
    rw [decide_eq_true_eq] at hv
    exact hv.1 ▸ hv.2

omit [LinearOrder K] [FloorRing K] [IsStrictOrderedRing K] in
/-- So it is over all the sentences. -/
theorem count_flatMap_hits (ss : List String) (w : String) :
    (ss.flatMap (posHits env)).count w + (ss.flatMap (negHits env)).count w =
      if w ∈ POS ∨ w ∈ NEG then (ss.flatMap (tokens env.lower)).count w else 0 := by
  induction ss with
  | nil => simp
  | cons s ss ih =>
    have hs := count_hits env s w
    rw [List.flatMap_cons, List.flatMap_cons, List.flatMap_cons, List.count_append,
      List.count_append, List.count_append]
    split_ifs at hs ih ⊢ <;> omega

omit [FloorRing K] in
/-- A quotient of a difference is bounded when either part is. -/
theorem quotient_mem {x : K} {n P Q : ℕ} (hn : n ≠ 0) (h : ((10 : ℕ) : K) * (x * n) = (P : K) - Q)
    (hP : P ≤ 16 * n) (hQ : Q ≤ 16 * n) : -(16 / 10) ≤ x ∧ x ≤ 16 / 10 := by
  have hpos : (0 : K) < n := Nat.cast_pos.mpr (Nat.pos_of_ne_zero hn)
  have hPK : (P : K) ≤ 16 * n := by exact_mod_cast hP
  have hQK : (Q : K) ≤ 16 * n := by exact_mod_cast hQ
  have hPnonneg : (0 : K) ≤ P := Nat.cast_nonneg P
  have hQnonneg : (0 : K) ≤ Q := Nat.cast_nonneg Q
  push_cast at h
  constructor
  · refine le_of_mul_le_mul_right ?_ hpos
    linarith
  · refine le_of_mul_le_mul_right ?_ hpos
    linarith

omit [FloorRing K] in
/-- The score of a sentence is at most the weight of an intensified word, and it has a side only
with a word there. -/
theorem norm_spec (s : String) :
    (-(16 / 10) ≤ norm env s ∧ norm env s ≤ 16 / 10) ∧ (0 < norm env s → posHits env s ≠ []) ∧
      (norm env s < 0 → negHits env s ≠ []) := by
  obtain ⟨hpos, hneg, hnSent, hnorm⟩ := scoreSentence_spec (K := K) env.lower s
  generalize hits (tokens env.lower s) = found at *
  by_cases hnone : (scoreSentence env.lower s : SentenceScore K).nSent = 0
  · have hzero : norm env s = 0 := if_pos hnone
    rw [hzero]
    exact ⟨⟨by norm_num, by norm_num⟩, fun h => absurd h (lt_irrefl 0),
      fun h => absurd h (lt_irrefl 0)⟩
  · obtain ⟨-, -, hpositive, hnegative⟩ := quotient_bounds hnone hnorm
    -- each side is at most 16 times the number of the words
    refine ⟨quotient_mem hnone hnorm (by omega) (by omega), fun h => ?_, fun h => ?_⟩
    · have := hpositive.mp h
      exact List.ne_nil_of_length_pos (by rw [posHits]; omega)
    · have := hnegative.mp h
      exact List.ne_nil_of_length_pos (by rw [negHits]; omega)

end Loop

/-! ### What a report says -/

section Report

variable {K : Type} [Field K] [LinearOrder K] [IsStrictOrderedRing K] [FloorRing K]

/-- What is used of the hyperbolic tangent. -/
structure IsTanh (tanh : K → K) : Prop where
  strictMono : StrictMono tanh
  zero : tanh 0 = 0
  abs_lt_one : ∀ x, |tanh x| < 1

/-- The score, its label and the confidence agree. -/
structure Agree (score : K) (label : Label) (confidence : K) : Prop where
  score_mem : -1 ≤ score ∧ score ≤ 1
  confidence_mem : 40 ≤ confidence ∧ confidence ≤ 99
  positive : label = .positive → POS_THRESH ≤ score ∧ 436 / 10 ≤ confidence
  negative : label = .negative → score ≤ NEG_THRESH ∧ 436 / 10 ≤ confidence
  neutral : label = .neutral → |score| ≤ POS_THRESH ∧ confidence ≤ 436 / 10

/-- A report about sentences. -/
structure IsReportOn (env : Environment K) (ss : List String) (r : Report K) : Prop where
  ne_nil : ss ≠ []
  /-- The timeline has the score of every sentence. -/
  timeline : r.timeline =
    ss.zipIdx.map fun sentence => (sentence.2 + 1, roundTo 3 (norm env sentence.1))
  timeline_mem : ∀ point ∈ r.timeline, -(16 / 10) ≤ point.2 ∧ point.2 ≤ 16 / 10
  /-- Every sentence is counted on one side, or on none. -/
  counts : r.posSentences = ss.countP (fun s => POS_THRESH < norm env s) ∧
    r.negSentences = ss.countP (fun s => norm env s < NEG_THRESH) ∧
    r.posSentences + r.neuSentences + r.negSentences = r.nSentences ∧ r.nSentences = ss.length
  distribution : r.distribution = [(.positive, r.posSentences), (.neutral, r.neuSentences),
    (.negative, r.negSentences)]
  /-- The keywords are the most common words of either side. -/
  keywords : IsMostCommon 8 (ss.flatMap (posHits env)) r.keywordsPositive ∧
    IsMostCommon 8 (ss.flatMap (negHits env)) r.keywordsNegative
  /-- Every word of the lexicons is counted on one of the sides. -/
  words : ∀ w, (ss.flatMap (posHits env)).count w + (ss.flatMap (negHits env)).count w =
    if w ∈ POS ∨ w ∈ NEG then (ss.flatMap (tokens env.lower)).count w else 0
  /-- The highlights are the first sentences of either side, and have a word there. -/
  highlights : r.highlightsPositive = (ss.filter fun s => POS_THRESH < norm env s).take 3 ∧
    r.highlightsNegative = (ss.filter fun s => norm env s < NEG_THRESH).take 3 ∧
    (∀ s ∈ r.highlightsPositive, posHits env s ≠ []) ∧
    ∀ s ∈ r.highlightsNegative, negHits env s ≠ []
  score : r.score =
    roundTo 3 (env.tanh ((ss.map (norm env)).sum / ss.length * ((3 : ℕ) : K)))
  agree : Agree r.score r.label r.confidence
  /-- A label has a keyword on its side. -/
  label : (r.label = .positive → r.keywordsPositive ≠ []) ∧
    (r.label = .negative → r.keywordsNegative ≠ [])

/-- The text of a request that is long enough is used, and a sample otherwise. -/
structure IsTranscriptOf (text : Option String) (source : Source) (transcript : String) : Prop where
  custom_iff : source = .custom ↔ ∃ t, text = some t ∧ 20 ≤ (stripped t).length
  custom : source = .custom → text = some transcript
  sample : source = .sample → transcript ∈ SAMPLES

omit [Field K] [LinearOrder K] [IsStrictOrderedRing K] [FloorRing K] in
/-- The text of the request is taken when it is long enough, and a sample otherwise. -/
theorem isTranscriptOf_transcriptOf (env : Environment K) (symbol : String)
    (text : Option String) :
    IsTranscriptOf text (transcriptOf env symbol text).1 (transcriptOf env symbol text).2 := by
  have hsample := sample_mem (env.seed symbol)
  cases text with
  | none => exact ⟨by simp [transcriptOf], by simp [transcriptOf], fun _ => hsample⟩
  | some t =>
    simp only [transcriptOf]
    split_ifs with hshort
    · exact ⟨by simpa using hshort, by simp, fun _ => hsample⟩
    · exact ⟨by simpa using hshort, by simp, by simp⟩

omit [LinearOrder K] [IsStrictOrderedRing K] [FloorRing K] in
theorem thresh_eq [CharZero K] : (POS_THRESH : K) = 6 / 100 ∧ (NEG_THRESH : K) = -(6 / 100) := by
  constructor <;> norm_num [POS_THRESH, NEG_THRESH]

/-- A score stays on its side of a threshold when it is rounded. -/
theorem roundTo_thresh :
    roundTo 3 (6 / 100 : K) = 6 / 100 ∧ roundTo 3 (-(6 / 100) : K) = -(6 / 100) :=
  ⟨roundTo_eq_self (n := 60) (by norm_num), roundTo_eq_self (n := -60) (by norm_num)⟩

/-- The confidence is one of 40 to 99 percent. -/
theorem confidenceOf_mem (score : K) : 40 ≤ confidenceOf score ∧ confidenceOf score ≤ 99 := by
  have hnonneg := abs_nonneg score
  have hbounds : ((40 : ℤ) : K) ≤ confidenceOf score ∧ confidenceOf score ≤ ((99 : ℤ) : K) := by
    refine ⟨le_roundTo ?_, roundTo_le ?_⟩
    · push_cast
      exact le_min (by norm_num) (by linarith)
    · push_cast
      exact min_le_left _ _
  push_cast at hbounds
  exact hbounds

/-- The confidence at the thresholds. -/
theorem confidenceOf_thresh (score : K) :
    (6 / 100 ≤ |score| → 436 / 10 ≤ confidenceOf score) ∧
      (|score| ≤ 6 / 100 → confidenceOf score ≤ 436 / 10) := by
  have hround : roundTo 1 (436 / 10 : K) = 436 / 10 := roundTo_eq_self (n := 436) (by norm_num)
  rw [← hround, confidenceOf]
  push_cast
  refine ⟨fun h => roundTo_mono 1 (le_min ?_ ?_), fun h => roundTo_mono 1 ?_⟩
  · norm_num
  · linarith
  · exact (min_le_right _ _).trans (by linarith)

/-- A score with its label and its confidence, rounded. -/
theorem agree_of_abs_lt {score : K} (h : |score| < 1) :
    Agree (roundTo 3 score) (labelOf score) (confidenceOf score) := by
  obtain ⟨hlo, hhi⟩ := abs_lt.mp h
  obtain ⟨hround, hroundNeg⟩ := roundTo_thresh (K := K)
  obtain ⟨hsure, hunsure⟩ := confidenceOf_thresh score
  -- rounding does not leave the range, nor cross the threshold
  have hscore : ((-1 : ℤ) : K) ≤ roundTo 3 score ∧ roundTo 3 score ≤ ((1 : ℤ) : K) :=
    ⟨le_roundTo (by push_cast; exact hlo.le), roundTo_le (by push_cast; exact hhi.le)⟩
  push_cast at hscore
  refine ⟨hscore, confidenceOf_mem score, fun hlabel => ?_, fun hlabel => ?_, fun hlabel => ?_⟩
  -- the label is decided on the score that is not rounded
  all_goals
    rw [labelOf] at hlabel
    simp only [thresh_eq.1, thresh_eq.2] at hlabel ⊢
    split_ifs at hlabel with habove hbelow
  · refine ⟨?_, hsure (habove.le.trans (le_abs_self score))⟩
    rw [← hround]
    exact roundTo_mono 3 habove.le
  · refine ⟨?_, hsure (by linarith [neg_le_abs score])⟩
    rw [← hroundNeg]
    exact roundTo_mono 3 hbelow.le
  · rw [not_lt] at habove hbelow
    refine ⟨abs_le.mpr ⟨?_, ?_⟩, hunsure (abs_le.mpr ⟨hbelow, habove⟩)⟩
    · rw [← hroundNeg]
      exact roundTo_mono 3 hbelow
    · rw [← hround]
      exact roundTo_mono 3 habove

/-- The most common words of a side are none only where there is no word. -/
theorem mostCommon_ne_nil {xs : List String} (h : xs ≠ []) : mostCommon 8 (tally xs) ≠ [] := by
  have hcard : 0 < xs.toFinset.card := by
    rw [Finset.card_pos, List.toFinset_nonempty_iff]
    exact h
  apply List.ne_nil_of_length_pos
  rw [(isMostCommon_mostCommon 8 xs).length_eq]
  omega

omit [FloorRing K] in
/-- Where the mean score is on a side, so is the score of a sentence, and there is a word. -/
theorem exists_hit (env : Environment K) (ss : List String) :
    (0 < (ss.map (norm env)).sum → ss.flatMap (posHits env) ≠ []) ∧
      ((ss.map (norm env)).sum < 0 → ss.flatMap (negHits env) ≠ []) := by
  constructor
  · intro hsum hnil
    rw [List.flatMap_eq_nil_iff] at hnil
    -- without a positive word no sentence has a positive score, nor the sum
    have hnone : ∀ x ∈ ss.map (norm env), x ≤ 0 := by
      rw [List.forall_mem_map]
      exact fun s hs => le_of_not_gt fun h => (norm_spec env s).2.1 h (hnil s hs)
    have hle := List.sum_le_card_nsmul _ _ hnone
    rw [nsmul_zero] at hle
    exact hsum.not_ge hle
  · intro hsum hnil
    rw [List.flatMap_eq_nil_iff] at hnil
    refine hsum.not_ge (List.sum_nonneg ?_)
    rw [List.forall_mem_map]
    exact fun s hs => le_of_not_gt fun h => (norm_spec env s).2.2 h (hnil s hs)

omit [FloorRing K] in
/-- The three counts are those of all sentences. -/
theorem countP_add (env : Environment K) (ss : List String) :
    ss.countP (fun s => POS_THRESH < norm env s) +
        ss.countP (fun s => NEG_THRESH ≤ norm env s ∧ norm env s ≤ POS_THRESH) +
        ss.countP (fun s => norm env s < NEG_THRESH) = ss.length := by
  have hthresh := neg_thresh_lt (K := K)
  induction ss with
  | nil => rfl
  | cons s ss ih =>
    simp only [List.countP_cons, List.length_cons, decide_eq_true_eq]
    rcases lt_or_ge POS_THRESH (norm env s) with habove | hnotAbove
    · rw [if_pos habove, if_neg fun h => habove.not_ge h.2,
        if_neg (hthresh.trans habove).not_gt]
      omega
    · rcases lt_or_ge (norm env s) NEG_THRESH with hbelow | hnotBelow
      · rw [if_neg hnotAbove.not_gt, if_neg fun h => hbelow.not_ge h.1, if_pos hbelow]
        omega
      · rw [if_neg hnotAbove.not_gt, if_pos ⟨hnotBelow, hnotAbove⟩, if_neg hnotBelow.not_gt]
        omega

omit [FloorRing K] in
/-- The score has the side of the sum. -/
theorem sum_sign_of_score {tanh : K → K} (htanh : IsTanh tanh) (x : K) (n : ℕ) :
    (0 < tanh (x / n * ((3 : ℕ) : K)) → 0 < x) ∧ (tanh (x / n * ((3 : ℕ) : K)) < 0 → x < 0) := by
  have hn : (0 : K) ≤ n := Nat.cast_nonneg n
  have hthree : (0 : K) ≤ ((3 : ℕ) : K) := Nat.cast_nonneg 3
  rw [← htanh.zero, htanh.strictMono.lt_iff_lt, htanh.strictMono.lt_iff_lt, htanh.zero]
  constructor
  · intro h
    by_contra hx
    exact h.not_ge (mul_nonpos_of_nonpos_of_nonneg
      (div_nonpos_of_nonpos_of_nonneg (not_lt.mp hx) hn) hthree)
  · intro h
    by_contra hx
    exact h.not_ge (mul_nonneg (div_nonneg (not_lt.mp hx) hn) hthree)

/-- The score of a sentence stays in its range when it is rounded. -/
theorem roundTo_norm_mem (env : Environment K) (s : String) :
    -(16 / 10) ≤ roundTo 3 (norm env s) ∧ roundTo 3 (norm env s) ≤ 16 / 10 := by
  obtain ⟨hlo, hhi⟩ := (norm_spec env s).1
  have hround : roundTo 3 (16 / 10 : K) = 16 / 10 := roundTo_eq_self (n := 1600) (by norm_num)
  have hroundNeg : roundTo 3 (-(16 / 10) : K) = -(16 / 10) :=
    roundTo_eq_self (n := -1600) (by norm_num)
  exact ⟨hroundNeg.symm.trans_le (roundTo_mono 3 hlo), (roundTo_mono 3 hhi).trans_eq hround⟩

/-- What is reported on a text with sentences is a report on them. -/
theorem isReportOn_reportOf {env : Environment K} (htanh : IsTanh env.tanh) (symbol : String)
    (source : Source) {text : String} (hne : sentences text ≠ []) :
    IsReportOn env (sentences text) (reportOf env symbol source text) := by
  have hthresh : (0 : K) < POS_THRESH ∧ (NEG_THRESH : K) < 0 := by
    rw [thresh_eq.1, thresh_eq.2]
    constructor <;> norm_num
  rw [reportOf, scoreSentences_eq]
  generalize sentences text = ss at *
  have hscore := sum_sign_of_score htanh (ss.map (norm env)).sum ss.length
  obtain ⟨hposHits, hnegHits⟩ := exists_hit env ss
  -- what the loop has counted is read off, and the score has the sign of the sum of the scores
  constructor
  case ne_nil => exact hne
  case timeline => rfl
  case timeline_mem =>
    intro point hpoint
    obtain ⟨⟨s, i⟩, -, rfl⟩ := List.mem_map.mp hpoint
    exact roundTo_norm_mem env s
  case counts => exact ⟨rfl, rfl, countP_add env ss, rfl⟩
  case distribution => rfl
  case keywords => exact ⟨isMostCommon_mostCommon 8 _, isMostCommon_mostCommon 8 _⟩
  case words =>
    exact count_flatMap_hits env ss
  case highlights =>
    refine ⟨rfl, rfl, fun s hs => ?_, fun s hs => ?_⟩
    · have hfilter := (List.mem_filter.mp (List.mem_of_mem_take hs)).2
      rw [decide_eq_true_eq] at hfilter
      exact (norm_spec env s).2.1 (hthresh.1.trans hfilter)
    · have hfilter := (List.mem_filter.mp (List.mem_of_mem_take hs)).2
      rw [decide_eq_true_eq] at hfilter
      exact (norm_spec env s).2.2 (hfilter.trans hthresh.2)
  case score => rfl
  case agree => exact agree_of_abs_lt (htanh.abs_lt_one _)
  case label =>
    refine ⟨fun hlabel => ?_, fun hlabel => ?_⟩
    all_goals
      dsimp only at hlabel
      rw [labelOf] at hlabel
      split_ifs at hlabel with habove hbelow
    · exact mostCommon_ne_nil (hposHits (hscore.1 (hthresh.1.trans habove)))
    · exact mostCommon_ne_nil (hnegHits (hscore.2 (hbelow.trans hthresh.2)))

/-- The answer to a request: a report in which every part agrees with the others, or none for a text
of the request whose pieces are all too short. -/
def IsAnswerTo (env : Environment K) (symbol text : Option String) : Option (Report K) → Prop
  | none => ∃ t, text = some t ∧ 20 ≤ (stripped t).length ∧
      ∀ ps, IsCut isEndMark isSpace (stripped t) ps → ∀ piece ∈ ps, piece.length ≤ 3
  | some r => r.symbol = symbolOf env symbol ∧ IsTranscriptOf text r.source r.transcript ∧
      IsReportOn env (sentences r.transcript) r ∧
      r.eventStudy =
        eventStudy defaultBeta (env.draws (env.seed r.symbol)) env.sqrt env.argsort

/-- Every request is answered, and the answer is consistent. -/
theorem analyzeSentiment_spec {env : Environment K} (htanh : IsTanh env.tanh)
    (symbol text : Option String) :
    IsAnswerTo env symbol text (analyzeSentiment env symbol text) := by
  have htranscript := isTranscriptOf_transcriptOf env (symbolOf env symbol) text
  rw [analyzeSentiment]
  generalize transcriptOf env (symbolOf env symbol) text = chosen at htranscript
  obtain ⟨source, transcript⟩ := chosen
  dsimp only at htranscript ⊢
  by_cases hnil : sentences transcript = []
  · -- a sample has sentences, so that the text is the one of the request
    have hcustom : source = .custom := by
      cases source with
      | custom => rfl
      | sample => exact absurd hnil (sentences_sample (htranscript.sample rfl))
    obtain ⟨t, ht, hlong⟩ := htranscript.custom_iff.mp hcustom
    obtain rfl : transcript = t := Option.some.inj ((htranscript.custom hcustom).symm.trans ht)
    rw [if_pos (by rw [hnil]; rfl)]
    refine ⟨transcript, ht, hlong, fun ps hcut piece hpiece => ?_⟩
    have hfilter := map_toList_sentences transcript
    rw [hnil, List.map_nil, (parts_eq transcript).1, isCut_iff.mp hcut] at hfilter
    have hshort := List.filter_eq_nil_iff.mp hfilter.symm piece hpiece
    rw [decide_eq_true_eq] at hshort
    omega
  · rw [if_neg (by rwa [List.isEmpty_iff])]
    exact ⟨rfl, htranscript, isReportOn_reportOf htanh _ _ hnil, rfl⟩

end Report

theorem isTanh_real : IsTanh Real.tanh := by
  refine ⟨fun x y hxy => ?_, Real.tanh_zero, Real.abs_tanh_lt_one⟩
  rw [← Real.artanh_lt_artanh_iff ⟨Real.neg_one_lt_tanh x, Real.tanh_lt_one x⟩
    ⟨Real.neg_one_lt_tanh y, Real.tanh_lt_one y⟩, Real.artanh_tanh, Real.artanh_tanh]
  exact hxy

/-- The environment of a request for AAPL. -/
noncomputable def aaplEnvironment : Environment ℝ where
  lower := String.toLower
  upper := String.toUpper
  seed := fun _ => 2333140142
  draws := fun _ => evenDraws ℝ
  tanh := Real.tanh
  sqrt := Real.sqrt
  argsort := fun xs => Tuple.sort xs

/-- A transcript of two good sentences. -/
theorem analyzeSentiment_spec_aapl :
    IsAnswerTo aaplEnvironment (some "AAPL") (some "Strong growth. We beat the guidance!")
      (analyzeSentiment aaplEnvironment (some "AAPL")
        (some "Strong growth. We beat the guidance!")) :=
  analyzeSentiment_spec isTanh_real _ _

end TradingSimulator.Sentiment
