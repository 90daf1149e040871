import TradingSimulator.Library.QueryPrograms
import TradingSimulator.Portfolio.EquityEngine

/-!
# Equity snapshots when reads fail

`record_equity_snapshot` (`app/portfolio/equity_snapshot_service.py`) from the outcome of every read
it makes, its own of the history and the three of `calculate_total_equity`
(`app/portfolio/equity_engine.py`). The snapshot is a row only when one is due (`SnapshotDue`).

`calculate_total_equity` is a program over its reads inside a handler that answers zero
(`calculateTotalEquity_eq_runOr`). The snapshot cannot tell this zero from an equity of zero, so a
failed valuation is stored (`recordEquitySnapshot_of_raises`); `storesValuations_iff` says when
every row is a valuation.
-/

namespace TradingSimulator

/-- The reads of `calculate_total_equity`. -/
inductive EquityQuery where
  | user
  | positions
  | prices
  deriving DecidableEq

/-- What a read of `calculate_total_equity` returns. -/
abbrev EquityQuery.Answer (α : Type) : EquityQuery → Type
  | .user => Option α
  | .positions => List (Position α)
  | .prices => String → Option α

/-- The outcomes of the reads of `calculate_total_equity`: the balance of the user row, the position
rows and the quoted prices. -/
structure EquityReads (α : Type) where
  user : Except DbError (Option α)
  positions : Except DbError (List (Position α))
  prices : Except DbError (String → Option α)

namespace EquityReads

variable {α : Type}

/-- The outcomes one by one. -/
def outcome (reads : EquityReads α) : ∀ query, Except DbError (EquityQuery.Answer α query)
  | .user => reads.user
  | .positions => reads.positions
  | .prices => reads.prices

/-- A read raises an exception. -/
def Raises (reads : EquityReads α) (query : EquityQuery) : Prop :=
  QueryProgram.Raises reads.outcome query

/-- All reads succeed, and there is a user. -/
def Complete (reads : EquityReads α) : Prop :=
  ∃ balance positions prices, reads.user = .ok (some balance) ∧ reads.positions = .ok positions ∧
    reads.prices = .ok prices

end EquityReads

section Snapshot

variable {α : Type} [Add α] [Mul α] [Zero α] [LE α] [DecidableLE α]

/-- The reads of `calculate_total_equity`, and what it does with their answers. -/
def equityProgram : QueryProgram DbError EquityQuery (EquityQuery.Answer α) α :=
  .query .user fun user =>
    match user with
    | none => .done 0
    | some balance =>
      .query .positions fun positions =>
        .query .prices fun prices =>
          .done (positions.foldl
            (fun total position => total + markPrice prices position * position.quantity) balance)

/-- The reads that a call of `calculate_total_equity` makes. -/
def EquityReads.executed (reads : EquityReads α) : List EquityQuery :=
  equityProgram.executed reads.outcome

/-- `calculate_total_equity` from its reads. -/
def EquityReads.totalEquity (reads : EquityReads α) : α :=
  calculateTotalEquity reads.user reads.positions reads.prices

/-- The reads on the rows of a user when none of them fails. -/
def Account.equityReads (account : Account α) (market : MarketState α) : EquityReads α where
  user := .ok (some account.balance)
  positions := .ok account.positions
  prices := .ok market.getAllPrices

/-- A snapshot is due: the history can be read, and its last row is not recent. -/
def SnapshotDue (history : Except DbError (List (EquityHistory α))) (now : ℤ) : Prop :=
  ∃ rows, history = .ok rows ∧
    ∀ last ∈ latestSnapshot rows, ¬ now - last.timestamp < snapshotCooldown

/-- `record_equity_snapshot` from the outcomes of its reads: its answer, and the row it adds. -/
def recordEquitySnapshot (history : Except DbError (List (EquityHistory α)))
    (reads : EquityReads α) (now : ℤ) : Option α × Option (EquityHistory α) :=
  match history with
  | .error _ => (none, none)
  | .ok rows =>
    match latestSnapshot rows with
    | some last =>
      if now - last.timestamp < snapshotCooldown then (some last.totalEquity, none)
      else (some reads.totalEquity, some ⟨reads.totalEquity, now⟩)
    | none => (some reads.totalEquity, some ⟨reads.totalEquity, now⟩)

/-- The rows of a user after a snapshot all of whose reads succeed. -/
theorem recordEquitySnapshot_ok (account : Account α) (market : MarketState α) (now : ℤ) :
    account.recordEquitySnapshot market now =
      { account with
        equityHistory := account.equityHistory ++
          (recordEquitySnapshot (.ok account.equityHistory) (account.equityReads market)
            now).2.toList } := by
  have hequity : (account.equityReads market).totalEquity = account.totalEquity market := rfl
  rw [Account.recordEquitySnapshot, recordEquitySnapshot, hequity]
  cases latestSnapshot account.equityHistory with
  | none => rfl
  | some last =>
    by_cases hrecent : now - last.timestamp < snapshotCooldown
    · simp [hrecent]
    · simp [hrecent]

/-- A snapshot that is due is written with the equity that was read. -/
theorem recordEquitySnapshot_of_due {history : Except DbError (List (EquityHistory α))} {now : ℤ}
    (hdue : SnapshotDue history now) (reads : EquityReads α) :
    recordEquitySnapshot history reads now =
      (some reads.totalEquity, some ⟨reads.totalEquity, now⟩) := by
  obtain ⟨rows, rfl, hlast⟩ := hdue
  simp only [recordEquitySnapshot]
  cases hrows : latestSnapshot rows with
  | none => rfl
  | some last => exact if_neg (hlast last hrows)

/-- Within the cooldown, or when the history cannot be read, nothing is stored. -/
theorem recordEquitySnapshot_of_not_due {history : Except DbError (List (EquityHistory α))}
    {now : ℤ} (hdue : ¬ SnapshotDue history now) (reads : EquityReads α) :
    (recordEquitySnapshot history reads now).2 = none := by
  cases history with
  | error error => rfl
  | ok rows =>
    simp only [recordEquitySnapshot]
    cases hrows : latestSnapshot rows with
    | none => exact absurd ⟨rows, rfl, by simp [hrows]⟩ hdue
    | some last =>
      by_cases hrecent : now - last.timestamp < snapshotCooldown
      · exact congrArg Prod.snd (if_pos hrecent)
      · exact absurd ⟨rows, rfl, by simpa [hrows] using hrecent⟩ hdue

/-- The valuation is its program inside a handler that answers zero. -/
theorem calculateTotalEquity_eq_runOr (reads : EquityReads α) :
    reads.totalEquity = equityProgram.runOr reads.outcome 0 := by
  obtain ⟨user, positions, prices⟩ := reads
  simp only [EquityReads.totalEquity, calculateTotalEquity, QueryProgram.runOr, equityProgram,
    QueryProgram.run_query]
  -- the exceptions of the reads are the same on both sides
  cases user with
  | error error => rfl
  | ok user =>
    cases user with
    | none => rfl
    | some balance =>
      cases positions with
      | error error => rfl
      | ok positions =>
        cases prices with
        | error error => rfl
        | ok prices => rfl

/-- No query of the equity is guarded. -/
theorem strict_equityProgram : (equityProgram (α := α)).Strict := by
  intro user
  cases user with
  | none => trivial
  | some balance =>
    intro positions prices
    trivial

/-- A failed valuation is stored as an equity of zero. -/
theorem recordEquitySnapshot_of_raises {history : Except DbError (List (EquityHistory α))}
    {reads : EquityReads α} {now : ℤ} (hdue : SnapshotDue history now)
    (hraises : ∃ query ∈ reads.executed, reads.Raises query) :
    recordEquitySnapshot history reads now = (some 0, some ⟨0, now⟩) := by
  have hzero : reads.totalEquity = 0 := by
    rw [calculateTotalEquity_eq_runOr]
    exact strict_equityProgram.runOr_of_raises 0 hraises
  rw [recordEquitySnapshot_of_due hdue, hzero]

end Snapshot

/-- No failed valuation is stored: when a read of `calculate_total_equity` raises no row is added,
and a row that is added has the balance plus every position at its mark. -/
def StoresValuations (history : Except DbError (List (EquityHistory ℚ))) (reads : EquityReads ℚ)
    (now : ℤ) : Prop :=
  ((∃ query ∈ reads.executed, reads.Raises query) →
      (recordEquitySnapshot history reads now).2 = none) ∧
    ∀ row ∈ (recordEquitySnapshot history reads now).2, ∃ balance positions prices,
      reads.user = .ok (some balance) ∧ reads.positions = .ok positions ∧
        reads.prices = .ok prices ∧
        row.totalEquity = balance +
          (positions.map fun position => markPrice prices position * position.quantity).sum

/-- Complete reads raise nothing. -/
theorem EquityReads.Complete.not_raises {reads : EquityReads ℚ} (h : reads.Complete)
    (query : EquityQuery) : ¬ reads.Raises query := by
  obtain ⟨balance, positions, prices, huser, hpositions, hprices⟩ := h
  rintro ⟨error, herror⟩
  cases query with
  | user => exact absurd (huser.symm.trans herror) (by simp)
  | positions => exact absurd (hpositions.symm.trans herror) (by simp)
  | prices => exact absurd (hprices.symm.trans herror) (by simp)

/-- No failed valuation is stored exactly when a snapshot that is due finds its user and all its
reads succeed. -/
theorem storesValuations_iff (history : Except DbError (List (EquityHistory ℚ)))
    (reads : EquityReads ℚ) (now : ℤ) :
    StoresValuations history reads now ↔ (SnapshotDue history now → reads.Complete) := by
  constructor
  · rintro ⟨-, hrows⟩ hdue
    -- the row that is added tells what the reads have returned
    have hrow := congrArg Prod.snd (recordEquitySnapshot_of_due hdue reads)
    obtain ⟨balance, positions, prices, huser, hpositions, hprices, -⟩ := hrows _ hrow
    exact ⟨balance, positions, prices, huser, hpositions, hprices⟩
  · intro hcomplete
    by_cases hdue : SnapshotDue history now
    · constructor
      · rintro ⟨query, -, hraises⟩
        exact absurd hraises ((hcomplete hdue).not_raises query)
      · intro row hrow
        rw [recordEquitySnapshot_of_due hdue, Option.mem_some_iff] at hrow
        obtain ⟨balance, positions, prices, huser, hpositions, hprices⟩ := hcomplete hdue
        refine ⟨balance, positions, prices, huser, hpositions, hprices, ?_⟩
        rw [← hrow, EquityReads.totalEquity, huser, hpositions, hprices,
          calculateTotalEquity_ok]
    · have hnone := recordEquitySnapshot_of_not_due hdue reads
      rw [StoresValuations, hnone]
      exact ⟨fun _ => rfl, by simp⟩

/-- The position rows of a user with a balance of 1000 cannot be read. -/
def unreadPositions : EquityReads ℚ where
  user := .ok (some 1000)
  positions := .error .queryFailed
  prices := .ok fun _ => none

/-- A snapshot is stored although the positions could not be read. -/
theorem unreadPositions_not_storesValuations : ¬ StoresValuations (.ok []) unreadPositions 0 := by
  rintro ⟨hnone, -⟩
  have hrow := hnone ⟨.positions, by decide, .queryFailed, rfl⟩
  revert hrow
  decide

example : (recordEquitySnapshot (.ok []) unreadPositions 0).2 = some ⟨0, 0⟩ := by decide

end TradingSimulator
