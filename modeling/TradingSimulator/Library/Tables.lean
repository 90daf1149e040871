import Mathlib.Data.List.MinMax
import Mathlib.Data.List.Pairwise

/-!
# Tables with unique columns

A table is a list of rows of which no two clash: `Clash` relates rows that agree in a unique column.
An insertion that would clash is refused (`insert?`), so that no table violates its constraints.

Rows that belong to an owner have a generated key and the columns of their own (`OwnedRow`). The
rows of one owner (`owned`) and those of all the others (`others`) are followed through insertions
(`owned_of_insertFor?`, `others_of_insertFor?`) and through the deletion of all rows of an owner
(`owned_clear`, `others_clear`).
-/

/-- Rows of which no two clash. -/
structure Table (ρ : Type) (Clash : ρ → ρ → Prop) where
  rows : List ρ
  distinct : rows.Pairwise fun row other => ¬ Clash row other

/-- Generated keys: a key that is not in use. -/
structure KeySource where
  next : List ℕ → ℕ
  fresh : ∀ used, next used ∉ used

/-- One more than the greatest key in use. -/
def KeySource.afterLast : KeySource where
  next used := used.foldr max 0 + 1
  fresh _ hmem :=
    absurd (List.le_max_of_le' 0 hmem le_rfl) (Nat.not_succ_le_self _)

namespace Table

variable {ρ : Type} {Clash : ρ → ρ → Prop}

/-- A table without rows. -/
def empty : Table ρ Clash where
  rows := []
  distinct := List.Pairwise.nil

/-- `INSERT` of a row, refused when it clashes with a row of the table. -/
def insert? [DecidableRel Clash] (row : ρ) (t : Table ρ Clash) : Option (Table ρ Clash) :=
  if h : ∀ old ∈ t.rows, ¬ Clash old row then
    some
      { rows := t.rows ++ [row]
        distinct := List.pairwise_append.mpr
          ⟨t.distinct, List.pairwise_singleton _ row, fun old hold new hnew => by
            rw [List.mem_singleton.mp hnew]
            exact h old hold⟩ }
  else none

/-- `DELETE` of the rows that satisfy `p`. -/
def deleteWhere (p : ρ → Bool) (t : Table ρ Clash) : Table ρ Clash where
  rows := t.rows.filter fun row => ! p row
  distinct := t.distinct.filter _

/-- `UPDATE` of every row by a function that leaves the unique columns alone. -/
def update (f : ρ → ρ) (hf : ∀ row other, Clash (f row) (f other) → Clash row other)
    (t : Table ρ Clash) : Table ρ Clash where
  rows := t.rows.map f
  distinct := List.pairwise_map.mpr (t.distinct.imp fun h hclash => h (hf _ _ hclash))

@[simp]
theorem rows_deleteWhere (p : ρ → Bool) (t : Table ρ Clash) :
    (t.deleteWhere p).rows = t.rows.filter fun row => ! p row := rfl

@[simp]
theorem rows_update (f : ρ → ρ) (hf : ∀ row other, Clash (f row) (f other) → Clash row other)
    (t : Table ρ Clash) : (t.update f hf).rows = t.rows.map f := rfl

section Insert

variable [DecidableRel Clash] {row : ρ} {t t' : Table ρ Clash}

/-- An inserted row stands behind the other ones. -/
theorem rows_of_insert? (h : t.insert? row = some t') : t'.rows = t.rows ++ [row] := by
  unfold insert? at h
  split at h
  · cases h
    rfl
  · cases h

/-- A row is refused exactly when it clashes. -/
theorem insert?_eq_none_iff : t.insert? row = none ↔ ∃ old ∈ t.rows, Clash old row := by
  unfold insert?
  split
  · next h => simpa using h
  · next h => simpa using h

end Insert

end Table

/-! ### Rows with an owner -/

/-- A row with a generated key, the key of its owner and the other columns. -/
structure OwnedRow (C : Type) where
  id : ℕ
  userId : ℕ
  columns : C
  deriving DecidableEq

namespace OwnedRow

variable {C : Type} {Same : C → C → Prop}

/-- Rows clash when their keys agree, or when they belong to one owner and `Same` relates their
columns. -/
def Clash (Same : C → C → Prop) (row other : OwnedRow C) : Prop :=
  row.id = other.id ∨ row.userId = other.userId ∧ Same row.columns other.columns

instance [DecidableRel Same] : DecidableRel (Clash Same) := fun row other =>
  inferInstanceAs (Decidable (row.id = other.id ∨ row.userId = other.userId ∧ _))

end OwnedRow

/-- A table of rows with an owner. -/
abbrev OwnedTable (C : Type) (Same : C → C → Prop) := Table (OwnedRow C) (OwnedRow.Clash Same)

namespace OwnedTable

variable {C : Type} {Same : C → C → Prop}

/-- The columns of the rows of an owner. -/
def owned (userId : ℕ) (t : OwnedTable C Same) : List C :=
  (t.rows.filter fun row => row.userId = userId).map OwnedRow.columns

/-- The rows of every other owner. -/
def others (userId : ℕ) (t : OwnedTable C Same) : List (OwnedRow C) :=
  t.rows.filter fun row => row.userId ≠ userId

/-- `DELETE` of the rows of an owner. -/
def clear (userId : ℕ) (t : OwnedTable C Same) : OwnedTable C Same :=
  t.deleteWhere fun row => row.userId = userId

/-- `INSERT` of a row for an owner, with a generated key. -/
def insertFor? [DecidableRel Same] (keys : KeySource) (userId : ℕ) (columns : C)
    (t : OwnedTable C Same) : Option (OwnedTable C Same) :=
  t.insert? { id := keys.next (t.rows.map OwnedRow.id), userId, columns }

/-- Nothing is left of the owner whose rows are deleted. -/
@[simp]
theorem owned_clear (userId : ℕ) (t : OwnedTable C Same) : (t.clear userId).owned userId = [] := by
  simp [owned, clear]

/-- The other owners keep their rows. -/
@[simp]
theorem others_clear (userId : ℕ) (t : OwnedTable C Same) :
    (t.clear userId).others userId = t.others userId := by
  simp [others, clear]

section Insert

variable [DecidableRel Same] {keys : KeySource} {userId : ℕ} {columns : C}
  {t t' : OwnedTable C Same}

theorem owned_of_insertFor? (h : t.insertFor? keys userId columns = some t') :
    t'.owned userId = t.owned userId ++ [columns] := by
  rw [owned, Table.rows_of_insert? h]
  simp [owned]

/-- The other owners keep their rows. -/
theorem others_of_insertFor? (h : t.insertFor? keys userId columns = some t') :
    t'.others userId = t.others userId := by
  rw [others, Table.rows_of_insert? h]
  simp [others]

/-- An insertion is refused by a row of the same owner only: the generated key is fresh. -/
theorem exists_insertFor? (keys : KeySource) (h : ∀ old ∈ t.owned userId, ¬ Same old columns) :
    ∃ t', t.insertFor? keys userId columns = some t' := by
  rw [← Option.ne_none_iff_exists', insertFor?, Ne, Table.insert?_eq_none_iff]
  rintro ⟨old, hold, hid | ⟨howner, hsame⟩⟩
  -- the generated key is not in use, so the clash is one of the columns
  · have hused : old.id ∈ t.rows.map OwnedRow.id := List.mem_map_of_mem hold
    rw [hid] at hused
    exact keys.fresh _ hused
  · refine h old.columns (List.mem_map_of_mem ?_) hsame
    exact List.mem_filter.mpr ⟨hold, decide_eq_true howner⟩

end Insert

end OwnedTable
