import Mathlib.Data.List.Infix

/-!
# Rewriting of texts

Two ways in which programs rewrite a text: a beginning that is listed in a table is replaced by
another one, and all occurrences of a word are deleted. Where no beginning of the table is one of
another, a text has at most one of them, and what comes behind it stays as it is
(`rewrite_append`).
-/

namespace TextRewriting

variable {α : Type*} [DecidableEq α]

section Tables

/-- The text with `target` in the place of the first beginning of the table that it has, and `none`
where it has none of them. -/
def rewrite (table : List (List α)) (target s : List α) : Option (List α) :=
  (table.find? fun start => start.isPrefixOf s).map fun start => target ++ s.drop start.length

omit [DecidableEq α] in
/-- No beginning of the table is one of another. -/
def PrefixFree (table : List (List α)) : Prop :=
  ∀ start ∈ table, ∀ other ∈ table, start <+: other → start = other

instance (table : List (List α)) : Decidable (PrefixFree table) :=
  inferInstanceAs (Decidable (∀ start ∈ table, ∀ other ∈ table, start <+: other → start = other))

/-- What comes behind a beginning of the table stays as it is. -/
theorem rewrite_append {table : List (List α)} (hfree : PrefixFree table) {start : List α}
    (hstart : start ∈ table) (target rest : List α) :
    rewrite table target (start ++ rest) = some (target ++ rest) := by
  have hsome : (table.find? fun other => other.isPrefixOf (start ++ rest)).isSome := by
    rw [List.find?_isSome]
    exact ⟨start, hstart, by simp⟩
  obtain ⟨found, hfound⟩ := Option.isSome_iff_exists.mp hsome
  have hmem := List.mem_of_find?_eq_some hfound
  have hbegins : found <+: start ++ rest := by simpa using List.find?_some hfound
  -- two beginnings of one text are comparable, and so equal
  have heq : found = start := by
    rcases List.prefix_or_prefix_of_prefix hbegins (List.prefix_append start rest) with h | h
    · exact hfree found hmem start hstart h
    · exact (hfree start hstart found hmem h).symm
  rw [rewrite, hfound, Option.map_some, heq, List.drop_left]

/-- A text that is rewritten has a beginning of the table. -/
theorem exists_of_rewrite_eq_some {table : List (List α)} {target s t : List α}
    (h : rewrite table target s = some t) :
    ∃ start ∈ table, ∃ rest, s = start ++ rest ∧ t = target ++ rest := by
  obtain ⟨start, hfound, rfl⟩ := Option.map_eq_some_iff.mp h
  obtain ⟨rest, rfl⟩ : start <+: s := by simpa using List.find?_some hfound
  exact ⟨start, List.mem_of_find?_eq_some hfound, rest, rfl, by rw [List.drop_left]⟩

end Tables

section Deletion

/-- The text behind the next `skip` letters, without the occurrences of the word in it, from left to
right. -/
def deleteFrom (word : List α) : ℕ → List α → List α
  | _, [] => []
  | skip + 1, _ :: s => deleteFrom word skip s
  | 0, c :: s =>
    if word.isPrefixOf (c :: s) then deleteFrom word (word.length - 1) s
    else c :: deleteFrom word 0 s

/-- The text without the occurrences of the word. -/
def delete (word s : List α) : List α := deleteFrom word 0 s

/-- A text without the word stays as it is. -/
theorem delete_eq_self {word s : List α} (h : ¬ word <:+: s) : delete word s = s := by
  induction s with
  | nil => rfl
  | cons c s ih =>
    rw [List.infix_cons_iff, not_or] at h
    have hhead : ¬ word.isPrefixOf (c :: s) = true := by simpa using h.1
    rw [delete, deleteFrom, if_neg hhead, ← delete, ih h.2]

/-- The word is deleted at the start. -/
theorem delete_append {word : List α} (hword : word ≠ []) (rest : List α) :
    delete word (word ++ rest) = delete word rest := by
  obtain ⟨c, tail, rfl⟩ := List.exists_cons_of_ne_nil hword
  -- behind its first letter, the rest of the word is skipped letter by letter
  have hskip : ∀ front : List α,
      deleteFrom (c :: tail) front.length (front ++ rest) = deleteFrom (c :: tail) 0 rest := by
    intro front
    induction front with
    | nil => rfl
    | cons d front ih => exact ih
  have hhead : (c :: tail).isPrefixOf (c :: (tail ++ rest)) = true := by simp
  rw [delete, List.cons_append, deleteFrom, if_pos hhead]
  exact hskip tail

/-- Letters that the word does not begin with stay in front. -/
theorem delete_cons_append {c : α} {tail front : List α} (hfront : c ∉ front) (rest : List α) :
    delete (c :: tail) (front ++ rest) = front ++ delete (c :: tail) rest := by
  induction front with
  | nil => rfl
  | cons d front ih =>
    rw [List.mem_cons, not_or] at hfront
    have hhead : ¬ (c :: tail).isPrefixOf (d :: (front ++ rest)) = true := by
      simp [hfront.1]
    rw [List.cons_append, delete, deleteFrom, if_neg hhead, ← delete, ih hfront.2,
      List.cons_append]

omit [DecidableEq α] in
/-- A word cannot lie across a letter that is not in it. -/
theorem not_infix_append {word front rest : List α} (hlast : ∀ c ∈ front.getLast?, c ∉ word)
    (hfront : ¬ word <:+: front) (hrest : ¬ word <:+: rest) : ¬ word <:+: front ++ rest := by
  -- the word lies in front, behind, or across the last letter in front
  rw [List.infix_append_iff_ne_nil]
  rintro (h | h | ⟨left, right, hne, -, rfl, hsuffix, -⟩)
  · exact hfront h
  · exact hrest h
  · apply hlast (left.getLast hne)
    · obtain ⟨before, rfl⟩ := hsuffix
      rw [Option.mem_def, List.getLast?_append_of_ne_nil _ hne, List.getLast?_eq_some_getLast hne]
    · exact List.mem_append_left _ (List.getLast_mem hne)

end Deletion

end TextRewriting
