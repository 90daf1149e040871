import Mathlib.Algebra.BigOperators.Group.List.Basic
import Mathlib.Algebra.Group.Basic
import Mathlib.Data.List.Nodup
import Mathlib.Tactic.Abel

/-!
# Rows with a key

A database table restricted to one owner is a list of rows, and a query by key returns the first
row that carries it. This module gives the three operations a unit of work performs on such a
list and says how lookups, unique keys and column sums change under them.

* `lookup key k rows`: the first row with key `k`;
* `put key row rows`: `row` in the place of the first row with the same key, or appended;
* `erase key k rows`: `rows` without the first row with key `k`.
-/

namespace KeyedRows

variable {κ ρ M : Type*} [DecidableEq κ] (key : ρ → κ)

/-- The first row with key `k`. -/
def lookup (k : κ) (rows : List ρ) : Option ρ :=
  rows.find? fun row => decide (key row = k)

/-- Replace the first row that has the key of `row`, or append `row` when there is none. -/
def put (row : ρ) : List ρ → List ρ
  | [] => [row]
  | old :: rows => if key old = key row then row :: rows else old :: put row rows

/-- Remove the first row with key `k`. -/
def erase (k : κ) (rows : List ρ) : List ρ :=
  rows.eraseP fun row => decide (key row = k)

variable {key}

@[simp]
theorem lookup_nil (k : κ) : lookup key k [] = none := rfl

theorem lookup_cons (k : κ) (row : ρ) (rows : List ρ) :
    lookup key k (row :: rows) = if key row = k then some row else lookup key k rows := by
  by_cases h : key row = k <;> simp [lookup, h]

theorem erase_cons (k : κ) (row : ρ) (rows : List ρ) :
    erase key k (row :: rows) = if key row = k then rows else row :: erase key k rows := by
  by_cases h : key row = k <;> simp [erase, h]

/-- A row found under `k` is one of the rows and has key `k`. -/
theorem mem_of_lookup {k : κ} {rows : List ρ} {row : ρ} (h : lookup key k rows = some row) :
    row ∈ rows ∧ key row = k :=
  ⟨List.mem_of_find?_eq_some h, by simpa using List.find?_some h⟩

/-- Nothing is found under `k` exactly when no row has key `k`. -/
theorem lookup_eq_none_iff {k : κ} {rows : List ρ} :
    lookup key k rows = none ↔ ∀ row ∈ rows, key row ≠ k := by
  simp [lookup]

/-- With unique keys every row is the one found under its key. -/
theorem lookup_of_mem {rows : List ρ} (hnodup : (rows.map key).Nodup) {row : ρ}
    (hmem : row ∈ rows) : lookup key (key row) rows = some row := by
  induction rows with
  | nil => cases hmem
  | cons old rows ih =>
    rw [List.map_cons, List.nodup_cons] at hnodup
    rw [lookup_cons]
    rcases List.mem_cons.mp hmem with rfl | hmem
    · rw [if_pos rfl]
    · -- a row further down has another key than the first one
      have hne : key old ≠ key row := fun h =>
        hnodup.1 (h ▸ List.mem_map_of_mem hmem)
      rw [if_neg hne]
      exact ih hnodup.2 hmem

/-- A key that the first rows do not have is looked for in the other ones. -/
theorem lookup_append {k : κ} {first : List ρ} (hfirst : ∀ row ∈ first, key row ≠ k)
    (rest : List ρ) : lookup key k (first ++ rest) = lookup key k rest := by
  have hnone : lookup key k first = none := lookup_eq_none_iff.mpr hfirst
  unfold lookup at hnone ⊢
  rw [List.find?_append, hnone, Option.none_or]

/-- A row whose key the first rows do not have is written among the other ones. -/
theorem put_append {row : ρ} {first : List ρ} (hfirst : ∀ old ∈ first, key old ≠ key row)
    (rest : List ρ) : put key row (first ++ rest) = first ++ put key row rest := by
  induction first with
  | nil => rfl
  | cons old first ih =>
    rw [List.forall_mem_cons] at hfirst
    rw [List.cons_append, put, if_neg hfirst.1, ih hfirst.2, List.cons_append]

/-! ### Lookups after a write -/

/-- The row just written is the one found under its key. -/
theorem lookup_put_self (row : ρ) (rows : List ρ) :
    lookup key (key row) (put key row rows) = some row := by
  induction rows with
  | nil => simp [put, lookup_cons]
  | cons old rows ih =>
    by_cases h : key old = key row
    · simp [put, h, lookup_cons]
    · simp [put, h, lookup_cons, ih]

/-- Writing a row leaves the lookups under every other key as they were. -/
theorem lookup_put_of_ne {k : κ} {row : ρ} (hne : key row ≠ k) (rows : List ρ) :
    lookup key k (put key row rows) = lookup key k rows := by
  induction rows with
  | nil => simp [put, lookup_cons, hne]
  | cons old rows ih =>
    by_cases h : key old = key row
    · simp [put, h, lookup_cons, hne]
    · simp [put, h, lookup_cons, ih]

/-- With unique keys nothing is found under an erased key. -/
theorem lookup_erase_self {k : κ} {rows : List ρ} (hnodup : (rows.map key).Nodup) :
    lookup key k (erase key k rows) = none := by
  induction rows with
  | nil => rfl
  | cons old rows ih =>
    rw [List.map_cons, List.nodup_cons] at hnodup
    rw [erase_cons]
    by_cases h : key old = k
    · -- the first row is the one erased, and no other has its key
      rw [if_pos h, lookup_eq_none_iff]
      rintro row hrow rfl
      exact hnodup.1 (h ▸ List.mem_map_of_mem hrow)
    · rw [if_neg h, lookup_cons, if_neg h, ih hnodup.2]

/-- Erasing a key leaves the lookups under every other key as they were. -/
theorem lookup_erase_of_ne {k k' : κ} (hne : k' ≠ k) (rows : List ρ) :
    lookup key k (erase key k' rows) = lookup key k rows := by
  induction rows with
  | nil => rfl
  | cons old rows ih =>
    by_cases h : key old = k'
    · simp [erase_cons, lookup_cons, h, hne]
    · simp [erase_cons, lookup_cons, h, ih]

/-- Writing a row that is found as it is changes nothing. -/
theorem put_eq_self {row : ρ} {rows : List ρ} (h : lookup key (key row) rows = some row) :
    put key row rows = rows := by
  induction rows with
  | nil => simp at h
  | cons old rows ih =>
    rw [lookup_cons] at h
    rw [put]
    split_ifs at h ⊢ with hkey
    · rw [Option.some.inj h]
    · rw [ih h]

/-- A row is found under the keys of the rows. -/
theorem isSome_lookup_iff {k : κ} {rows : List ρ} :
    (lookup key k rows).isSome ↔ k ∈ rows.map key := by
  rw [← Option.ne_none_iff_isSome, Ne, lookup_eq_none_iff]
  simp

/-- Writing under a key that is there changes no key. -/
theorem map_put {row : ρ} {rows : List ρ} (h : key row ∈ rows.map key) :
    (put key row rows).map key = rows.map key := by
  induction rows with
  | nil => simp at h
  | cons old rows ih =>
    rw [put]
    split_ifs with hkey
    · simp [hkey]
    · rcases List.mem_cons.mp h with hold | hrest
      · exact absurd hold.symm hkey
      · simp [ih hrest]

/-! ### Two tables that are related row by row -/

section Related

variable {ρ' : Type*} {key' : ρ' → κ} {R : ρ → ρ' → Prop}

/-- The rows found under a key are related, if any is found. -/
theorem rel_lookup (hkey : ∀ row row', R row row' → key row = key' row') {rows : List ρ}
    {rows' : List ρ'} (h : List.Forall₂ R rows rows') (k : κ) :
    Option.Rel R (lookup key k rows) (lookup key' k rows') := by
  induction h with
  | nil => exact .none
  | @cons row row' rows rows' hrow _ ih =>
    rw [lookup_cons, lookup_cons, hkey row row' hrow]
    split_ifs
    · exact .some hrow
    · exact ih

/-- A row is found in both tables or in none. -/
theorem isSome_lookup_eq (hkey : ∀ row row', R row row' → key row = key' row') {rows : List ρ}
    {rows' : List ρ'} (h : List.Forall₂ R rows rows') (k : κ) :
    (lookup key k rows).isSome = (lookup key' k rows').isSome := by
  have hrel := rel_lookup hkey h k
  generalize lookup key k rows = row? at hrel ⊢
  generalize lookup key' k rows' = row'? at hrel ⊢
  rcases hrel with _ | _ <;> rfl

/-- Writing related rows keeps the tables related. -/
theorem forall₂_put (hkey : ∀ row row', R row row' → key row = key' row') {rows : List ρ}
    {rows' : List ρ'} (h : List.Forall₂ R rows rows') {row : ρ} {row' : ρ'} (hrow : R row row') :
    List.Forall₂ R (put key row rows) (put key' row' rows') := by
  induction h with
  | nil => exact .cons hrow .nil
  | @cons old old' rows rows' hold hrest ih =>
    rw [put, put, hkey old old' hold, hkey row row' hrow]
    split_ifs
    · exact .cons hrow hrest
    · exact .cons hold ih

end Related

/-! ### Rows and unique keys after a write -/

/-- Every row after a write is the written row or one of the rows before it. -/
theorem mem_of_mem_put {row r : ρ} {rows : List ρ} (h : r ∈ put key row rows) :
    r = row ∨ r ∈ rows := by
  induction rows with
  | nil => simpa [put] using h
  | cons old rows ih =>
    rw [put] at h
    split at h
    · rcases List.mem_cons.mp h with h | h
      · exact Or.inl h
      · exact Or.inr (List.mem_cons_of_mem _ h)
    · rcases List.mem_cons.mp h with h | h
      · exact Or.inr (h ▸ List.mem_cons_self)
      · exact (ih h).imp_right (List.mem_cons_of_mem _)

/-- Every row left by an erasure was there before it. -/
theorem mem_of_mem_erase {k : κ} {r : ρ} {rows : List ρ} (h : r ∈ erase key k rows) : r ∈ rows :=
  List.mem_of_mem_eraseP h

/-- Writing a row keeps the keys unique. -/
theorem nodup_put (row : ρ) {rows : List ρ} (hnodup : (rows.map key).Nodup) :
    ((put key row rows).map key).Nodup := by
  induction rows with
  | nil => simp [put]
  | cons old rows ih =>
    rw [List.map_cons, List.nodup_cons] at hnodup
    rw [put]
    split
    · next h =>
      rw [List.map_cons, List.nodup_cons, ← h]
      exact hnodup
    · next h =>
      rw [List.map_cons, List.nodup_cons]
      refine ⟨fun hmem => ?_, ih hnodup.2⟩
      -- a second row with the key of `old` is neither the written one nor an old one
      obtain ⟨r, hr, hkey⟩ := List.mem_map.mp hmem
      rcases mem_of_mem_put hr with rfl | hr
      · exact h hkey.symm
      · exact hnodup.1 (hkey ▸ List.mem_map_of_mem hr)

/-- Erasing a row keeps the keys unique. -/
theorem nodup_erase (k : κ) {rows : List ρ} (hnodup : (rows.map key).Nodup) :
    ((erase key k rows).map key).Nodup :=
  hnodup.sublist (List.eraseP_sublist.map key)

/-! ### Column sums after a write -/

variable [AddCommGroup M]

/-- A column sum after a write: the old row's entry is replaced by the new row's. -/
theorem sum_put (f : ρ → M) (row : ρ) (rows : List ρ) :
    ((put key row rows).map f).sum =
      (rows.map f).sum - ((lookup key (key row) rows).map f).getD 0 + f row := by
  induction rows with
  | nil => simp [put]
  | cons old rows ih =>
    by_cases h : key old = key row
    · simp [put, h, lookup_cons, add_comm]
    · simp only [put, h, ↓reduceIte, List.map_cons, List.sum_cons, ih, lookup_cons]
      abel

/-- A column sum after an erasure: the erased row's entry is gone. -/
theorem sum_erase (f : ρ → M) (k : κ) (rows : List ρ) :
    ((erase key k rows).map f).sum =
      (rows.map f).sum - ((lookup key k rows).map f).getD 0 := by
  induction rows with
  | nil => simp [erase]
  | cons old rows ih =>
    by_cases h : key old = k
    · simp [erase_cons, h, lookup_cons]
    · simp only [erase_cons, h, ↓reduceIte, List.map_cons, List.sum_cons, ih, lookup_cons]
      abel

end KeyedRows
