import Mathlib.Algebra.Order.Field.Rat
import TradingSimulator.Library.QueryPrograms
import TradingSimulator.Risk.RiskEngine

/-!
# The risk gate when queries fail

The gate as a program over its three queries (`riskProgram`), each of which may raise an exception.
`check_risk_limits` answers an exception with a refusal, and `riskProgram_run` says that this is the
gate of `Risk.RiskEngine`. The position and the exposure are read by plain queries, so the gate
refuses when one of them fails (`checkRiskLimits_of_raises`).

The realized P&L of the day is read inside a handler of its own (`calculate_daily_pnl`), which
answers a failure with a P&L of zero: a gate without this query checks no daily loss at all
(`checkRiskLimits_of_dailyRealized_error`). `failsClosed_iff` is what remains of the gate failing
closed.
-/

namespace TradingSimulator

/-- The database queries of the gate. -/
inductive RiskQuery where
  | dailyRealized
  | position
  | totalExposure
  deriving DecidableEq

/-- What a query of the gate returns. -/
abbrev RiskQuery.Answer (α : Type) : RiskQuery → Type
  | .dailyRealized => Option α
  | .position => Option (Position α)
  | .totalExposure => Option α

/-- The outcomes of the queries, one by one. -/
def RiskReads.outcome {α : Type} (reads : RiskReads α) :
    ∀ query, Except DbError (RiskQuery.Answer α query)
  | .dailyRealized => reads.dailyRealized
  | .position => reads.position
  | .totalExposure => reads.totalExposure

section Program

variable {α : Type} [Add α] [Mul α] [Neg α] [Zero α] [NatCast α]
  [LT α] [LE α] [DecidableLT α] [DecidableLE α]

/-- The gate after the daily loss. -/
def limitProgram (action : String) (quantity price : α) :
    QueryProgram DbError RiskQuery (RiskQuery.Answer α) Bool :=
  if quantity ≤ 0 ∨ price ≤ 0 then .done false
  else
    .query .position fun position =>
      let currentQty := (position.map Position.quantity).getD 0
      if action = "BUY" ∧ (maxPositionPerStock : α) < currentQty + quantity then .done false
      else if action = "SELL" ∧ currentQty < quantity then .done false
      else
        .query .totalExposure fun totalExposure =>
          if action = "BUY" ∧ (maxTotalExposure : α) < totalExposure.getD 0 + quantity * price then
            .done false
          else .done true

/-- The queries of `check_risk_limits`, and what it does with their answers. -/
def riskProgram (action : String) (quantity price : α) :
    QueryProgram DbError RiskQuery (RiskQuery.Answer α) Bool :=
  -- `calculate_daily_pnl` catches the exception of its query
  .guarded .dailyRealized fun total =>
    if checkDailyLossLimit total = false then .done false else limitProgram action quantity price

/-- The queries a call of the gate executes. -/
def RiskReads.executed (reads : RiskReads α) (action : String) (quantity price : α) :
    List RiskQuery :=
  (riskProgram action quantity price).executed reads.outcome

/-- A query of the gate raises an exception. -/
def RiskReads.Raises (reads : RiskReads α) (query : RiskQuery) : Prop :=
  QueryProgram.Raises reads.outcome query

/-- No failure lets a trade pass: `check_daily_loss_limit` refuses when its query raises, and
`check_risk_limits` when any query it executes does. -/
def RiskReads.FailsClosed (reads : RiskReads α) (action : String) (quantity price : α) : Prop :=
  (reads.Raises .dailyRealized → checkDailyLossLimit reads.dailyRealized = false) ∧
    ((∃ query ∈ reads.executed action quantity price, reads.Raises query) →
      checkRiskLimits reads action quantity price = false)

/-- The program is the body of the gate. -/
theorem riskProgram_run (reads : RiskReads α) (action : String) (quantity price : α) :
    (riskProgram action quantity price).run reads.outcome =
      riskVerdict reads action quantity price := by
  simp only [riskProgram, limitProgram, QueryProgram.run_guarded, QueryProgram.run_ite,
    QueryProgram.run_done, QueryProgram.run_query]
  rfl

/-- The gate is the program inside a handler that refuses. -/
theorem checkRiskLimits_eq_runOr (reads : RiskReads α) (action : String) (quantity price : α) :
    checkRiskLimits reads action quantity price =
      (riskProgram action quantity price).runOr reads.outcome false := by
  rw [QueryProgram.runOr, riskProgram_run, checkRiskLimits]
  cases riskVerdict reads action quantity price with
  | ok verdict => rfl
  | error error => rfl

omit [Neg α] in
/-- After the daily loss every failure escapes. -/
theorem strict_limitProgram (action : String) (quantity price : α) :
    (limitProgram action quantity price).Strict := by
  rw [limitProgram]
  split
  · trivial
  · intro position
    show QueryProgram.Strict (ite _ _ _)
    split
    · trivial
    split
    · trivial
    · intro totalExposure
      show QueryProgram.Strict (ite _ _ _)
      split <;> trivial

/-- The gate refuses when one of its own queries fails. -/
theorem checkRiskLimits_of_raises {reads : RiskReads α} {action : String} {quantity price : α}
    (hdaily : ¬ reads.Raises .dailyRealized)
    (hraises : ∃ query ∈ reads.executed action quantity price, reads.Raises query) :
    checkRiskLimits reads action quantity price = false := by
  rw [checkRiskLimits_eq_runOr]
  refine QueryProgram.runOr_guarded_of_raises (fun total => ?_) false hdaily hraises
  split
  · trivial
  · exact strict_limitProgram action quantity price

/-- Without the P&L of the day the gate decides as for a user without trades. -/
theorem checkRiskLimits_of_dailyRealized_error {reads : RiskReads α} (action : String)
    (quantity price : α) (hdaily : reads.Raises .dailyRealized) :
    checkRiskLimits reads action quantity price =
      checkRiskLimits { reads with dailyRealized := .ok none } action quantity price := by
  obtain ⟨error, herror⟩ := hdaily
  have hquery : reads.dailyRealized = .error error := herror
  have hsame : checkDailyLossLimit reads.dailyRealized =
      checkDailyLossLimit (.ok none : Except DbError (Option α)) := by
    rw [hquery]
    rfl
  simp only [checkRiskLimits, riskVerdict, hsame]

end Program

/-- A daily loss that cannot be read is within the limit. -/
theorem checkDailyLossLimit_error (error : DbError) :
    checkDailyLossLimit (.error error : Except DbError (Option ℚ)) = true := by
  simp [checkDailyLossLimit, calculateDailyPnl, maxDailyLoss]

/-- The gate fails closed unless the query of the daily loss is the one that fails. -/
theorem failsClosed_iff (reads : RiskReads ℚ) (action : String) (quantity price : ℚ) :
    reads.FailsClosed action quantity price ↔ ¬ reads.Raises .dailyRealized := by
  constructor
  · rintro ⟨hloss, -⟩ hraises
    have hrefused := hloss hraises
    obtain ⟨error, herror⟩ := hraises
    have hquery : reads.dailyRealized = .error error := herror
    rw [hquery, checkDailyLossLimit_error] at hrefused
    cases hrefused
  · intro hdaily
    exact ⟨fun hraises => absurd hraises hdaily, checkRiskLimits_of_raises hdaily⟩

/-- The query of the daily loss fails, the other two find nothing. -/
def unreadDailyLoss : RiskReads ℚ where
  dailyRealized := .error .queryFailed
  position := .ok none
  totalExposure := .ok none

/-- The order passes although the daily loss could not be read. -/
theorem unreadDailyLoss_not_failsClosed : ¬ unreadDailyLoss.FailsClosed "BUY" 10 100 := by
  rintro ⟨hloss, -⟩
  have hrefused := hloss ⟨.queryFailed, rfl⟩
  revert hrefused
  decide +kernel

example : checkRiskLimits unreadDailyLoss "BUY" 10 100 = true := by decide +kernel

end TradingSimulator
