import TradingSimulator.Library.KeyedRows
import Mathlib.Data.Finset.Dedup
import Mathlib.Data.Finset.Card

/-!
# Counters

A dictionary that counts words: its entries stand in the order in which their words came first. The
entries with the largest counts are found by a stable sort, so that of two words that came equally
often the one that came first stands first (`isMostCommon_mostCommon`).
-/

namespace Counters

open KeyedRows

variable {κ : Type*} [DecidableEq κ]

/-- The count of a word. -/
def get (counts : List (κ × ℕ)) (w : κ) : ℕ := ((lookup Prod.fst w counts).map Prod.snd).getD 0

/-- The counts with one more of the word. -/
def increment (counts : List (κ × ℕ)) (w : κ) : List (κ × ℕ) :=
  put Prod.fst (w, get counts w + 1) counts

/-- The counts of the words of a text. -/
def tally (xs : List κ) : List (κ × ℕ) := xs.foldl increment []

/-- The first `n` entries, sorted by their counts. -/
def mostCommon (n : ℕ) (counts : List (κ × ℕ)) : List (κ × ℕ) :=
  (counts.mergeSort fun a b => b.2 ≤ a.2).take n

/-! ### Counting -/

theorem tally_concat (xs : List κ) (w : κ) : tally (xs ++ [w]) = increment (tally xs) w := by
  rw [tally, List.foldl_append, tally, List.foldl_cons, List.foldl_nil]

/-- Only the count of the word goes up. -/
theorem get_increment (counts : List (κ × ℕ)) (w k : κ) :
    get (increment counts w) k = get counts k + if w = k then 1 else 0 := by
  by_cases h : w = k
  · subst h
    have hself : lookup Prod.fst w (increment counts w) = some (w, get counts w + 1) :=
      lookup_put_self (w, get counts w + 1) counts
    rw [get, hself, if_pos rfl]
    rfl
  · have hother : lookup Prod.fst k (increment counts w) = lookup Prod.fst k counts :=
      lookup_put_of_ne h counts
    rw [get, hother, if_neg h, Nat.add_zero, get]

/-- The words of the entries: a new one comes last. -/
theorem map_fst_increment (counts : List (κ × ℕ)) (w : κ) :
    (increment counts w).map Prod.fst =
      if w ∈ counts.map Prod.fst then counts.map Prod.fst else counts.map Prod.fst ++ [w] := by
  split_ifs with h
  · exact map_put h
  · have hnew : ∀ old ∈ counts, old.1 ≠ w := by
      rintro old hold rfl
      exact h (List.mem_map_of_mem hold)
    have hput : increment (counts ++ []) w = counts ++ [(w, get (counts ++ []) w + 1)] :=
      put_append hnew []
    rw [List.append_nil] at hput
    rw [hput, List.map_append]
    rfl

/-- The tally of a list has the counts of its members. -/
theorem get_tally (xs : List κ) (w : κ) : get (tally xs) w = xs.count w := by
  induction xs using List.reverseRecOn with
  | nil => rfl
  | append_singleton xs x ih =>
    rw [tally_concat, get_increment, ih, List.count_append, List.count_singleton]
    simp only [beq_iff_eq]

/-- What occurs is what has a count. -/
theorem mem_map_fst_tally {xs : List κ} {w : κ} : w ∈ (tally xs).map Prod.fst ↔ w ∈ xs := by
  induction xs using List.reverseRecOn with
  | nil => rfl
  | append_singleton xs x ih =>
    rw [tally_concat, map_fst_increment, List.mem_append, List.mem_singleton, ← ih]
    split_ifs with h
    · refine ⟨Or.inl, ?_⟩
      rintro (hw | rfl)
      · exact hw
      · exact h
    · rw [List.mem_append, List.mem_singleton]

/-- The entries stand in the order in which their words came first. -/
theorem pairwise_tally (xs : List κ) :
    (tally xs).Pairwise fun a b => xs.idxOf a.1 < xs.idxOf b.1 := by
  rw [← List.pairwise_map (R := fun v w => xs.idxOf v < xs.idxOf w)]
  induction xs using List.reverseRecOn with
  | nil => exact .nil
  | append_singleton xs x ih =>
    -- the words that were there keep their places
    have hold : ((tally xs).map Prod.fst).Pairwise fun v w =>
        (xs ++ [x]).idxOf v < (xs ++ [x]).idxOf w := by
      refine ih.imp_of_mem fun hv hw hlt => ?_
      rwa [List.idxOf_append_of_mem (mem_map_fst_tally.mp hv),
        List.idxOf_append_of_mem (mem_map_fst_tally.mp hw)]
    rw [tally_concat, map_fst_increment]
    split_ifs with hx
    · exact hold
    · rw [mem_map_fst_tally] at hx
      refine List.pairwise_append.mpr ⟨hold, List.pairwise_singleton _ _, fun v hv w hw => ?_⟩
      obtain rfl := List.mem_singleton.mp hw
      rw [mem_map_fst_tally] at hv
      rw [List.idxOf_append_of_mem hv, List.idxOf_append_of_notMem hx]
      exact Nat.lt_add_right _ (List.idxOf_lt_length_of_mem hv)

theorem nodup_map_fst_tally (xs : List κ) : ((tally xs).map Prod.fst).Nodup := by
  rw [List.Nodup, List.pairwise_map]
  exact (pairwise_tally xs).imp fun hlt heq => absurd (congrArg xs.idxOf heq) hlt.ne

/-- An entry has a word of the text and the count of it. -/
theorem mem_tally {xs : List κ} {e : κ × ℕ} (h : e ∈ tally xs) :
    e.1 ∈ xs ∧ e.2 = xs.count e.1 := by
  refine ⟨mem_map_fst_tally.mp (List.mem_map_of_mem h), ?_⟩
  rw [← get_tally, get, lookup_of_mem (nodup_map_fst_tally xs) h]
  rfl

/-- There is one entry for each word. -/
theorem length_tally (xs : List κ) : (tally xs).length = xs.toFinset.card := by
  have hwords : ((tally xs).map Prod.fst).toFinset = xs.toFinset := by
    ext w
    rw [List.mem_toFinset, List.mem_toFinset, mem_map_fst_tally]
  rw [← hwords, List.toFinset_card_of_nodup (nodup_map_fst_tally xs), List.length_map]

/-! ### The most common words -/

/-- A stable sort leaves entries that are in order as they stand. -/
theorem filter_mergeSort {α : Type*} {le : α → α → Bool} {p : α → Bool} {xs : List α}
    (trans : ∀ a b c, le a b → le b c → le a c) (total : ∀ a b, le a b || le b a)
    (h : (xs.filter p).Pairwise fun a b => le a b) :
    (xs.mergeSort le).filter p = xs.filter p := by
  have hsub := (List.sublist_mergeSort trans total h List.filter_sublist).filter p
  have hself : (fun a => p a && p a) = p := by
    ext a
    rw [Bool.and_self]
  rw [List.filter_filter, hself] at hsub
  exact (hsub.eq_of_length ((List.mergeSort_perm xs le).filter p).length_eq.symm).symm

/-- A word stands before another one: it is more common, or came first of two that are as common. -/
def Precedes (xs : List κ) (v w : κ) : Prop :=
  xs.count w < xs.count v ∨ xs.count v = xs.count w ∧ xs.idxOf v < xs.idxOf w

/-- At most `n` words with their counts, the most common ones first. -/
structure IsMostCommon (n : ℕ) (xs : List κ) (top : List (κ × ℕ)) : Prop where
  length_eq : top.length = min n xs.toFinset.card
  count_eq : ∀ e ∈ top, e.1 ∈ xs ∧ e.2 = xs.count e.1
  ordered : top.Pairwise fun a b => Precedes xs a.1 b.1
  /-- Every other word stands behind. -/
  rest : ∀ e ∈ top, ∀ w ∈ xs, w ∉ top.map Prod.fst → Precedes xs e.1 w

/-- The sorted entries stand by their counts, and within a count by their first places. -/
theorem pairwise_mergeSort_tally (xs : List κ) :
    ((tally xs).mergeSort fun a b => b.2 ≤ a.2).Pairwise fun a b => Precedes xs a.1 b.1 := by
  -- larger counts come first
  have trans : ∀ a b c : κ × ℕ, decide (b.2 ≤ a.2) → decide (c.2 ≤ b.2) → decide (c.2 ≤ a.2) := by
    simp only [decide_eq_true_eq]
    exact fun a b c hab hbc => hbc.trans hab
  have total : ∀ a b : κ × ℕ, decide (b.2 ≤ a.2) || decide (a.2 ≤ b.2) := by
    simp only [Bool.or_eq_true, decide_eq_true_eq]
    exact fun a b => le_total _ _
  have hsorted := List.pairwise_mergeSort trans total (tally xs)
  apply List.pairwise_of_forall_sublist
  intro a b hab
  have hle : b.2 ≤ a.2 := by simpa using hsorted.forall_sublist hab
  have ha := mem_tally (List.mem_mergeSort.mp (hab.subset List.mem_cons_self))
  have hb := mem_tally (List.mem_mergeSort.mp
    (hab.subset (List.mem_cons_of_mem a (List.mem_singleton_self b))))
  rcases hle.lt_or_eq with hlt | heq
  · left
    rwa [← ha.2, ← hb.2]
  · -- the entries with this count stand as they stood before
    right
    refine ⟨by rw [← ha.2, ← hb.2, heq], ?_⟩
    have hequal : ((tally xs).filter fun e => e.2 = a.2).Pairwise
        fun c d => decide (d.2 ≤ c.2) := by
      refine List.pairwise_of_forall_mem_list fun c hc d hd => ?_
      rw [List.mem_filter, decide_eq_true_eq] at hc hd
      rw [hc.2, hd.2, decide_eq_true_eq]
    have hpair := hab.filter fun e => e.2 = a.2
    rw [filter_mergeSort trans total hequal] at hpair
    have hboth : [a, b].filter (fun e => e.2 = a.2) = [a, b] := by simp [heq]
    rw [hboth] at hpair
    exact (pairwise_tally xs).forall_sublist (hpair.trans List.filter_sublist)

/-- The counts are sorted by a stable sort, so ties keep the order of first occurrence. -/
theorem isMostCommon_mostCommon (n : ℕ) (xs : List κ) :
    IsMostCommon n xs (mostCommon n (tally xs)) := by
  have hordered := pairwise_mergeSort_tally xs
  have hperm := List.mergeSort_perm (tally xs) fun a b => b.2 ≤ a.2
  rw [mostCommon]
  generalize (tally xs).mergeSort (fun a b => b.2 ≤ a.2) = sorted at hordered hperm
  refine ⟨?_, fun e he => ?_, hordered.sublist (List.take_sublist n sorted), ?_⟩
  · rw [List.length_take, hperm.length_eq, length_tally]
  · exact mem_tally (hperm.subset (List.mem_of_mem_take he))
  · intro e he w hw hout
    -- the entry of the word is among those that are left out
    obtain ⟨other, hother, rfl⟩ := List.mem_map.mp (mem_map_fst_tally.mpr hw)
    have hdrop : other ∈ sorted.drop n := by
      rw [← hperm.mem_iff, ← List.take_append_drop n sorted, List.mem_append] at hother
      exact hother.resolve_left fun htake => hout (List.mem_map_of_mem htake)
    rw [← List.take_append_drop n sorted, List.pairwise_append] at hordered
    exact hordered.2.2 e he other hdrop

end Counters
