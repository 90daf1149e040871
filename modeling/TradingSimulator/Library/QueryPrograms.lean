import Mathlib.Data.List.Basic
import Mathlib.Tactic.SplitIfs

/-!
# Programs over failing queries

A program that asks one query after another, where every query may raise an exception. A plain
query lets its exception escape; a guarded query catches it and goes on with the outcome.

* `run` is the result of a program or the exception that escapes from it, `executed` the queries it
  asks on the way.
* `runOr` is the program inside a handler that answers every exception with a fixed result.
* `Strict` programs have no guarded query. An exception escapes from one exactly when an executed
  query raises (`Strict.run_eq_error_iff`), so that the handler around it misses no failure
  (`Strict.runOr_of_raises`); a guarded query hides its own failure only
  (`runOr_guarded_of_raises`).
-/

/-- A program whose queries `q : Q` are answered in `A q` or raise an exception in `E`. -/
inductive QueryProgram (E Q : Type) (A : Q → Type) (R : Type) : Type where
  | done (result : R)
  | query (q : Q) (next : A q → QueryProgram E Q A R)
  | guarded (q : Q) (next : Except E (A q) → QueryProgram E Q A R)

namespace QueryProgram

variable {E Q R : Type} {A : Q → Type}

/-- A query whose outcome is an exception. -/
def Raises (outcome : ∀ q, Except E (A q)) (q : Q) : Prop :=
  ∃ error, outcome q = .error error

/-- The result of a program, or the exception that escapes from it. -/
def run (outcome : ∀ q, Except E (A q)) : QueryProgram E Q A R → Except E R
  | done result => .ok result
  | query q next =>
    match outcome q with
    | .ok answer => (next answer).run outcome
    | .error error => .error error
  | guarded q next => (next (outcome q)).run outcome

/-- The queries a program asks, in their order. -/
def executed (outcome : ∀ q, Except E (A q)) : QueryProgram E Q A R → List Q
  | done _ => []
  | query q next =>
    match outcome q with
    | .ok answer => q :: (next answer).executed outcome
    -- nothing is asked after an exception
    | .error _ => [q]
  | guarded q next => q :: (next (outcome q)).executed outcome

/-- The program inside a handler that answers every exception with `sentinel`. -/
def runOr (outcome : ∀ q, Except E (A q)) (sentinel : R) (program : QueryProgram E Q A R) : R :=
  match program.run outcome with
  | .ok result => result
  | .error _ => sentinel

/-- No query of the program is guarded. -/
def Strict : QueryProgram E Q A R → Prop
  | done _ => True
  | query _ next => ∀ answer, (next answer).Strict
  | guarded _ _ => False

section Run

variable {outcome : ∀ q, Except E (A q)}

@[simp]
theorem run_done (result : R) : (done result : QueryProgram E Q A R).run outcome = .ok result :=
  rfl

@[simp]
theorem executed_done (result : R) :
    (done result : QueryProgram E Q A R).executed outcome = [] := rfl

theorem run_query_ok {q : Q} {answer : A q} (h : outcome q = .ok answer)
    (next : A q → QueryProgram E Q A R) :
    (query q next).run outcome = (next answer).run outcome := by
  simp only [run, h]

theorem run_query_error {q : Q} {error : E} (h : outcome q = .error error)
    (next : A q → QueryProgram E Q A R) : (query q next).run outcome = .error error := by
  simp only [run, h]

theorem executed_query_ok {q : Q} {answer : A q} (h : outcome q = .ok answer)
    (next : A q → QueryProgram E Q A R) :
    (query q next).executed outcome = q :: (next answer).executed outcome := by
  simp only [executed, h]

theorem executed_query_error {q : Q} {error : E} (h : outcome q = .error error)
    (next : A q → QueryProgram E Q A R) : (query q next).executed outcome = [q] := by
  simp only [executed, h]

/-- A plain query is a bind. -/
theorem run_query (q : Q) (next : A q → QueryProgram E Q A R) :
    (query q next).run outcome = outcome q >>= fun answer => (next answer).run outcome := by
  cases h : outcome q with
  | ok answer => exact run_query_ok h next
  | error error => exact run_query_error h next

@[simp]
theorem run_guarded (q : Q) (next : Except E (A q) → QueryProgram E Q A R) :
    (guarded q next).run outcome = (next (outcome q)).run outcome := rfl

@[simp]
theorem executed_guarded (q : Q) (next : Except E (A q) → QueryProgram E Q A R) :
    (guarded q next).executed outcome = q :: (next (outcome q)).executed outcome := rfl

theorem run_ite (c : Prop) [Decidable c] (program other : QueryProgram E Q A R) :
    (if c then program else other).run outcome =
      if c then program.run outcome else other.run outcome :=
  apply_ite (run outcome) c program other

end Run

/-- An exception escapes from a strict program exactly when an executed query raises one. -/
theorem Strict.run_eq_error_iff {program : QueryProgram E Q A R} (h : program.Strict)
    (outcome : ∀ q, Except E (A q)) :
    (∃ error, program.run outcome = .error error) ↔
      ∃ q ∈ program.executed outcome, Raises outcome q := by
  induction program with
  | done result => simp
  | guarded q next ih => exact absurd h id
  | query q next ih =>
    cases houtcome : outcome q with
    | error error =>
      -- the program ends here, with the exception of this query
      rw [run_query_error houtcome, executed_query_error houtcome]
      constructor
      · rintro -
        exact ⟨q, List.mem_singleton_self q, error, houtcome⟩
      · rintro -
        exact ⟨error, rfl⟩
    | ok answer =>
      rw [run_query_ok houtcome, executed_query_ok houtcome, ih answer (h answer)]
      have hanswered : ¬ Raises outcome q := by
        rintro ⟨error, herror⟩
        rw [houtcome] at herror
        cases herror
      simp [hanswered]

/-- The handler around a strict program misses no failure. -/
theorem Strict.runOr_of_raises {program : QueryProgram E Q A R} (h : program.Strict)
    {outcome : ∀ q, Except E (A q)} (sentinel : R)
    (hraises : ∃ q ∈ program.executed outcome, Raises outcome q) :
    program.runOr outcome sentinel = sentinel := by
  obtain ⟨error, hrun⟩ := (h.run_eq_error_iff outcome).mpr hraises
  simp only [runOr, hrun]

/-- A handler inside the program hides the failure of its own query only. -/
theorem runOr_guarded_of_raises {q : Q} {next : Except E (A q) → QueryProgram E Q A R}
    (h : ∀ result, (next result).Strict) {outcome : ∀ q, Except E (A q)} (sentinel : R)
    (hguarded : ¬ Raises outcome q)
    (hraises : ∃ q' ∈ (guarded q next).executed outcome, Raises outcome q') :
    (guarded q next).runOr outcome sentinel = sentinel := by
  obtain ⟨q', hexecuted, hq'⟩ := hraises
  rw [executed_guarded, List.mem_cons] at hexecuted
  rcases hexecuted with rfl | hlater
  · exact absurd hq' hguarded
  · exact (h (outcome q)).runOr_of_raises sentinel ⟨q', hlater, hq'⟩

end QueryProgram
