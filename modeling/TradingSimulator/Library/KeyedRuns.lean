import TradingSimulator.Library.KeyedRows
import Mathlib.Data.List.Dedup
import Mathlib.Data.List.Induction
import Mathlib.Order.Lattice

/-!
# Runs of rows with one key

A stream of rows is collected by merging every row into the last one collected, as long as both
have the same key. Rows can be collected in two stages: first by a fine key, and then, with every
row mapped to a coarser key, once more (`collect_map_collect`). When the keys of the stream never
decrease, collecting is the same as merging every row into the row of its key, wherever that one
stands (`foldl_mergeRow`), and the same as grouping the rows by their key and merging every group
(`collect_eq_groups`).
-/

namespace KeyedRuns

variable {κ ρ : Type*} [DecidableEq κ] (key : ρ → κ) (merge : ρ → ρ → ρ)

/-- Merge a row into the last one when it has the same key, and append it otherwise. -/
def push (rows : List ρ) (row : ρ) : List ρ :=
  match rows.getLast? with
  | none => [row]
  | some last =>
    if key last = key row then rows.dropLast ++ [merge last row] else rows ++ [row]

/-- The rows of a stream, with one row for every run of rows with the same key. -/
def collect (rows : List ρ) : List ρ := rows.foldl (push key merge) []

/-- Merge a row into the row of its key, and append it when there is none. -/
def mergeRow (rows : List ρ) (row : ρ) : List ρ :=
  match KeyedRows.lookup key (key row) rows with
  | none => KeyedRows.put key row rows
  | some old => KeyedRows.put key (merge old row) rows

/-- The rows of a stream in groups, one for every key. -/
def groups (rows : List ρ) : List (List ρ) :=
  (rows.map key).dedup.map fun k => rows.filter fun row => key row = k

/-- The rows of a group, merged in their order. -/
def mergeAll : List ρ → Option ρ
  | [] => none
  | row :: rest => some (rest.foldl merge row)

variable {key merge}

/-- Rows that are made from others are grouped as these. -/
theorem groups_map {σ : Type*} (f : σ → ρ) (rows : List σ) :
    groups key (rows.map f) = (groups (fun row => key (f row)) rows).map (List.map f) := by
  simp [groups, List.filter_map, Function.comp_def]

@[simp]
theorem push_nil (row : ρ) : push key merge [] row = [row] := rfl

theorem push_concat (rows : List ρ) (last row : ρ) :
    push key merge (rows ++ [last]) row =
      if key last = key row then rows ++ [merge last row] else rows ++ [last] ++ [row] := by
  simp [push]

@[simp]
theorem collect_nil : collect key merge [] = [] := rfl

theorem collect_concat (rows : List ρ) (row : ρ) :
    collect key merge (rows ++ [row]) = push key merge (collect key merge rows) row := by
  simp [collect, List.foldl_append]

/-! ### Two stages -/

section Stages

variable (hassoc : ∀ a b c, merge (merge a b) c = merge a (merge b c))
  (hkey : ∀ a b, key (merge a b) = key a)

include hassoc hkey

/-- Two rows of one key can be merged before they are pushed. -/
theorem push_push {a b : ρ} (h : key a = key b) (rows : List ρ) :
    push key merge (push key merge rows a) b = push key merge rows (merge a b) := by
  rcases List.eq_nil_or_concat' rows with rfl | ⟨rows, last, rfl⟩
  · simp [push, h]
  · rw [push_concat, push_concat, hkey]
    by_cases hlast : key last = key a
    · rw [if_pos hlast, if_pos hlast, push_concat, if_pos ((hkey last a).trans (hlast.trans h)),
        hassoc]
    · rw [if_neg hlast, if_neg hlast, push_concat, if_pos h]

/-- Collecting by a fine key first does not change what is collected by a coarser one. -/
theorem collect_map_collect {coarse : ρ → ρ}
    (hcoarse : ∀ a b, coarse (merge a b) = merge (coarse a) (coarse b))
    (hmono : ∀ a b, key a = key b → key (coarse a) = key (coarse b)) (rows : List ρ) :
    collect key merge ((collect key merge rows).map coarse) =
      collect key merge (rows.map coarse) := by
  induction rows using List.reverseRecOn with
  | nil => rfl
  | append_singleton rows row ih =>
    rw [collect_concat, List.map_append, List.map_singleton, collect_concat, ← ih]
    rcases List.eq_nil_or_concat' (collect key merge rows) with hnil | ⟨init, last, hlast⟩
    · rw [hnil]
      rfl
    · rw [hlast, push_concat]
      by_cases h : key last = key row
      · -- the row is merged in the first stage already
        rw [if_pos h, List.map_append, List.map_append, List.map_singleton, List.map_singleton,
          collect_concat, collect_concat, hcoarse, push_push hassoc hkey (hmono _ _ h)]
      · rw [if_neg h, List.map_append, List.map_singleton, collect_concat]

end Stages

/-! ### Keys that never decrease -/

section Sorted

variable {κ : Type*} [LinearOrder κ] {key : ρ → κ} (hkey : ∀ a b, key (merge a b) = key a)

include hkey

/-- The keys that are collected are keys of the stream. -/
theorem key_mem_of_mem_collect {rows : List ρ} :
    ∀ r ∈ collect key merge rows, ∃ row ∈ rows, key row = key r := by
  induction rows using List.reverseRecOn with
  | nil => simp
  | append_singleton rows row ih =>
    intro r hr
    rw [collect_concat] at hr
    have hold : ∀ old ∈ collect key merge rows, ∃ row' ∈ rows ++ [row], key row' = key old :=
      fun old hmem => by
        obtain ⟨row', hrow', heq⟩ := ih old hmem
        exact ⟨row', List.mem_append_left _ hrow', heq⟩
    rcases List.eq_nil_or_concat' (collect key merge rows) with hnil | ⟨init, last, hlast⟩
    · rw [hnil, push_nil, List.mem_singleton] at hr
      exact ⟨row, by simp, by rw [hr]⟩
    · rw [hlast] at hr hold
      rw [push_concat] at hr
      split_ifs at hr with h
      · -- the merged row keeps the key of the last one
        rcases List.mem_append.mp hr with hinit | hmerged
        · exact hold r (List.mem_append_left _ hinit)
        · rw [List.mem_singleton.mp hmerged, hkey]
          exact hold last (by simp)
      · rcases List.mem_append.mp hr with hrow | hnew
        · exact hold r hrow
        · exact ⟨row, by simp, by rw [List.mem_singleton.mp hnew]⟩

/-- A row with a key that is not below those collected so far keeps the keys increasing. -/
theorem pairwise_push {rows : List ρ} {row : ρ} (hrows : rows.Pairwise fun a b => key a < key b)
    (hle : ∀ r ∈ rows, key r ≤ key row) :
    (push key merge rows row).Pairwise fun a b => key a < key b := by
  rcases List.eq_nil_or_concat' rows with rfl | ⟨init, last, rfl⟩
  · simp
  · have hbelow : ∀ r ∈ init, key r < key last := fun r hr =>
      (List.pairwise_append.mp hrows).2.2 r hr last (List.mem_singleton_self last)
    rw [push_concat]
    split_ifs with h
    · -- merged: the keys are those from before
      refine List.pairwise_append.mpr ⟨(List.pairwise_append.mp hrows).1,
        List.pairwise_singleton _ _, fun r hr merged hmerged => ?_⟩
      rw [List.mem_singleton.mp hmerged, hkey]
      exact hbelow r hr
    · -- pushed: the new key is above the last one, and so above all
      have hlast : key last < key row := lt_of_le_of_ne (hle last (by simp)) h
      refine List.pairwise_append.mpr ⟨hrows, List.pairwise_singleton _ _, fun r hr new hnew => ?_⟩
      rw [List.mem_singleton.mp hnew]
      rcases List.mem_append.mp hr with hinit | hr
      · exact (hbelow r hinit).trans hlast
      · rwa [List.mem_singleton.mp hr]

/-- Such a row can only have the key of the last one. -/
theorem mergeRow_eq_push {rows : List ρ} {row : ρ}
    (hrows : rows.Pairwise fun a b => key a < key b) (hle : ∀ r ∈ rows, key r ≤ key row) :
    mergeRow key merge rows row = push key merge rows row := by
  rcases List.eq_nil_or_concat' rows with rfl | ⟨init, last, rfl⟩
  · rfl
  · -- the rows before the last one are below it, so the search by key passes them over
    have hbelow : ∀ r ∈ init, key r ≠ key row := fun r hr =>
      (((List.pairwise_append.mp hrows).2.2 r hr last (List.mem_singleton_self last)).trans_le
        (hle last (by simp))).ne
    rw [mergeRow, KeyedRows.lookup_append hbelow, KeyedRows.lookup_cons, push_concat]
    split_ifs with h
    · have hmerged : ∀ r ∈ init, key r ≠ key (merge last row) := fun r hr heq =>
        hbelow r hr (heq.trans ((hkey last row).trans h))
      simp only [KeyedRows.put_append hmerged, KeyedRows.put, hkey, if_pos]
    · simp only [KeyedRows.lookup_nil, KeyedRows.put_append hbelow, KeyedRows.put, if_neg h,
        List.append_assoc, List.singleton_append]

/-- What is collected from a stream whose keys never decrease has increasing keys. -/
theorem pairwise_collect {rows : List ρ} (hrows : rows.Pairwise fun a b => key a ≤ key b) :
    (collect key merge rows).Pairwise fun a b => key a < key b := by
  induction rows using List.reverseRecOn with
  | nil => exact List.Pairwise.nil
  | append_singleton rows row ih =>
    obtain ⟨hinit, -, hle⟩ := List.pairwise_append.mp hrows
    rw [collect_concat]
    refine pairwise_push hkey (ih hinit) fun r hr => ?_
    obtain ⟨old, hold, heq⟩ := key_mem_of_mem_collect hkey r hr
    exact heq ▸ hle old hold row (List.mem_singleton_self row)

/-- With keys that never decrease, merging by key collects the runs. -/
theorem foldl_mergeRow {rows : List ρ} (hrows : rows.Pairwise fun a b => key a ≤ key b) :
    rows.foldl (mergeRow key merge) [] = collect key merge rows := by
  induction rows using List.reverseRecOn with
  | nil => rfl
  | append_singleton rows row ih =>
    obtain ⟨hinit, -, hle⟩ := List.pairwise_append.mp hrows
    rw [List.foldl_append, ih hinit, List.foldl_cons, List.foldl_nil, collect_concat]
    refine mergeRow_eq_push hkey (pairwise_collect hkey hinit) fun r hr => ?_
    obtain ⟨old, hold, heq⟩ := key_mem_of_mem_collect hkey r hr
    exact heq ▸ hle old hold row (List.mem_singleton_self row)

/-! ### Groups -/

omit hkey

/-- The keys with one more that is not below them. -/
theorem dedup_concat {keys : List κ} {k : κ} (hkeys : (keys ++ [k]).Pairwise (· ≤ ·)) :
    (keys ++ [k]).dedup = if k ∈ keys then keys.dedup else keys.dedup ++ [k] := by
  have hinit : keys.Pairwise (· ≤ ·) := (List.pairwise_append.mp hkeys).1
  split_ifs with hmem
  · -- both lists are sorted, without duplicates, and have the same members
    refine List.Perm.eq_of_pairwise (fun a b _ _ => le_antisymm)
      (hkeys.sublist (List.dedup_sublist _)) (hinit.sublist (List.dedup_sublist _)) ?_
    rw [List.perm_ext_iff_of_nodup (List.nodup_dedup _) (List.nodup_dedup _)]
    intro x
    rw [List.mem_dedup, List.mem_dedup, List.mem_append, List.mem_singleton]
    exact ⟨fun h => h.elim id fun heq => heq ▸ hmem, Or.inl⟩
  · rw [List.Disjoint.dedup_append (List.disjoint_singleton.mpr hmem),
      List.dedup_eq_self.mpr (List.nodup_singleton k)]

/-- A key that is the greatest of all comes last. -/
theorem exists_dedup_concat {keys : List κ} {k : κ} (hkeys : (keys ++ [k]).Pairwise (· ≤ ·))
    (hmem : k ∈ keys) : ∃ init, keys.dedup = init ++ [k] ∧ k ∉ init := by
  have hnodup := List.nodup_dedup keys
  rcases List.eq_nil_or_concat' keys.dedup with hnil | ⟨init, last, hconcat⟩
  · rw [(List.dedup_eq_nil keys).mp hnil] at hmem
    cases hmem
  · have hsorted : (init ++ [last]).Pairwise (· ≤ ·) :=
      hconcat ▸ (List.pairwise_append.mp hkeys).1.sublist (List.dedup_sublist keys)
    have hlast : last ∈ keys := List.mem_dedup.mp (hconcat ▸ by simp)
    have hlastLe : last ≤ k := (List.pairwise_append.mp hkeys).2.2 last hlast k (by simp)
    have hk : k ∈ init ++ [last] := hconcat ▸ List.mem_dedup.mpr hmem
    -- the greatest key occurs in the sorted rest, so its last one is no smaller
    have hleLast : k ≤ last := by
      rcases List.mem_append.mp hk with hinit | hsingle
      · exact (List.pairwise_append.mp hsorted).2.2 k hinit last (by simp)
      · exact (List.mem_singleton.mp hsingle).le
    obtain rfl : last = k := le_antisymm hlastLe hleLast
    rw [hconcat] at hnodup
    exact ⟨init, hconcat, fun hinit =>
      (List.nodup_append.mp hnodup).2.2 last hinit last (by simp) rfl⟩

/-- One more row: it goes into the last group, or makes a group of its own. -/
theorem groups_concat {rows : List ρ} {row : ρ}
    (hrows : (rows ++ [row]).Pairwise fun a b => key a ≤ key b) :
    (∃ init last, last ≠ [] ∧ (∀ r ∈ last, key r = key row) ∧ groups key rows = init ++ [last] ∧
        groups key (rows ++ [row]) = init ++ [last ++ [row]]) ∨
      (∀ r ∈ rows, key r ≠ key row) ∧ groups key (rows ++ [row]) = groups key rows ++ [[row]] := by
  have hkeys : (rows.map key ++ [key row]).Pairwise (· ≤ ·) := by
    have hmap := List.pairwise_map.mpr hrows
    simpa using hmap
  have hdedup := dedup_concat hkeys
  by_cases hmem : key row ∈ rows.map key
  · -- the keys are sorted, so a key that is there already is the last one
    obtain ⟨init, hinit, hnot⟩ := exists_dedup_concat hkeys hmem
    obtain ⟨old, hold, holdKey⟩ := List.mem_map.mp hmem
    left
    refine ⟨init.map fun k => rows.filter fun r => key r = k,
      rows.filter fun r => key r = key row, ?_, by simp, ?_, ?_⟩
    · exact List.ne_nil_of_mem (List.mem_filter.mpr ⟨hold, by simpa using holdKey⟩)
    · simp [groups, hinit]
    · rw [if_pos hmem, hinit] at hdedup
      rw [groups, List.map_append, List.map_singleton, hdedup, List.map_append, List.map_singleton]
      congr 1
      · -- the earlier groups do not change
        refine List.map_congr_left fun k hk => ?_
        have hne : key row ≠ k := fun heq => hnot (heq ▸ hk)
        simp [List.filter_append, hne]
      · simp [List.filter_append]
  · right
    have hne : ∀ r ∈ rows, key r ≠ key row := fun r hr heq => hmem (List.mem_map.mpr ⟨r, hr, heq⟩)
    refine ⟨hne, ?_⟩
    rw [if_neg hmem] at hdedup
    rw [groups, List.map_append, List.map_singleton, hdedup, List.map_append, List.map_singleton]
    congr 1
    · -- no group of before takes the row
      refine List.map_congr_left fun k hk => ?_
      obtain ⟨r, hr, rfl⟩ := List.mem_map.mp (List.mem_dedup.mp hk)
      simp [List.filter_append, (hne r hr).symm]
    · have hnone : rows.filter (fun r => key r = key row) = [] := by
        simpa [List.filter_eq_nil_iff] using hne
      simp [List.filter_append, hnone]

/-- Every row of the stream is in one group, in the order of the stream. -/
theorem flatten_groups {rows : List ρ} (hrows : rows.Pairwise fun a b => key a ≤ key b) :
    (groups key rows).flatten = rows := by
  induction rows using List.reverseRecOn with
  | nil => rfl
  | append_singleton rows row ih =>
    have hold := ih (List.pairwise_append.mp hrows).1
    rcases groups_concat hrows with ⟨init, last, -, -, hbefore, hafter⟩ | ⟨-, hafter⟩
    · rw [hbefore] at hold
      rw [hafter, ← hold]
      simp
    · rw [hafter, List.flatten_append, hold]
      simp

include hkey

variable (merge) in
omit [LinearOrder κ] in
/-- A group grows by merging the next row into its own. -/
theorem mergeAll_concat {group : List ρ} (hne : group ≠ []) (row : ρ) :
    ∃ r, mergeAll merge group = some r ∧ key r = key (group.head hne) ∧
      mergeAll merge (group ++ [row]) = some (merge r row) := by
  obtain ⟨first, rest, rfl⟩ := List.exists_cons_of_ne_nil hne
  refine ⟨rest.foldl merge first, rfl, ?_, by simp [mergeAll]⟩
  induction rest using List.reverseRecOn with
  | nil => rfl
  | append_singleton rest last ih =>
    rw [List.foldl_append, List.foldl_cons, List.foldl_nil, hkey]
    exact ih (List.cons_ne_nil _ _)

/-- What is collected from a stream whose keys never decrease are its groups, each merged into one
row. -/
theorem collect_eq_groups {rows : List ρ} (hrows : rows.Pairwise fun a b => key a ≤ key b) :
    collect key merge rows = (groups key rows).filterMap (mergeAll merge) := by
  induction rows using List.reverseRecOn with
  | nil => rfl
  | append_singleton rows row ih =>
    have hinit := (List.pairwise_append.mp hrows).1
    rw [collect_concat, ih hinit]
    rcases groups_concat hrows with ⟨init, last, hne, hlast, hbefore, hafter⟩ | ⟨hnew, hafter⟩
    · obtain ⟨r, hr, hrkey, hmerged⟩ := mergeAll_concat merge hkey hne row
      have hsame : key r = key row := hrkey.trans (hlast _ (List.head_mem hne))
      rw [hbefore, hafter, List.filterMap_append, List.filterMap_append,
        List.filterMap_cons_some hr, List.filterMap_cons_some hmerged, List.filterMap_nil,
        push_concat, if_pos hsame]
    · rw [hafter, List.filterMap_append, ← ih hinit,
        List.filterMap_cons_some (show mergeAll merge [row] = some row from rfl),
        List.filterMap_nil]
      rcases List.eq_nil_or_concat' (collect key merge rows) with hnil | ⟨front, r, hconcat⟩
      · rw [hnil, push_nil, List.nil_append]
      · have hrow : r ∈ collect key merge rows := hconcat ▸ by simp
        obtain ⟨old, hold, heq⟩ := key_mem_of_mem_collect hkey r hrow
        rw [hconcat, push_concat, if_neg (heq ▸ hnew old hold)]

end Sorted

end KeyedRuns
