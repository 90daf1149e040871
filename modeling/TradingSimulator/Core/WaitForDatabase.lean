import TradingSimulator.Library.Loops
import Mathlib.Algebra.Order.Archimedean.Basic
import Mathlib.Algebra.Order.BigOperators.Group.List
import Mathlib.Algebra.Order.Field.Rat
import Mathlib.Data.Nat.Cast.Order.Field
import Mathlib.Data.Rat.Floor
import Mathlib.Tactic.Linarith

/-!
# Waiting for the database

`wait_for_database` (`app/core/database.py`) and `_wait_for_database` (`app/core/db_bootstrap.py`)
probe the database until it answers, and sleep between two probes: first a second, then twice as
long each time up to a maximal delay, but never past the deadline. They differ in where the timeout
comes from and in how a probe connects. Every sleep that does not end at the deadline takes a second
at least, so both give an answer (`waitForDatabase_spec`).
-/

namespace TradingSimulator.WaitForDatabase

open Loops

/-- What one run meets: the clock at its start, whether the database answers each probe, and the
time that passes until the clock is read behind a probe, apart from the sleep that was asked for. -/
structure Environment (K : Type) [Zero K] [LE K] where
  start : K
  probe : ℕ → Bool
  elapsed : ℕ → K
  elapsed_nonneg : ∀ attempt, 0 ≤ elapsed attempt

/-- The variables of the loop, with the sleeps asked for and the readings of the clock so far. -/
structure PollState (K : Type) where
  attempt : ℕ
  now : K
  delay : K
  sleeps : List K
  readings : List K

section Definitions

variable {K : Type} [Field K] [LinearOrder K]

/-- One turn of the loop, with the answer where it ends it. -/
def turn (env : Environment K) (deadline maxDelay : K) (s : PollState K) :
    Option Bool × PollState K :=
  if env.probe s.attempt then (some true, { s with attempt := s.attempt + 1 })
  else
    let reading := s.now + env.elapsed s.attempt
    let remaining := deadline - reading
    -- the clock is read once, behind the failed probe
    let failed := { s with attempt := s.attempt + 1, readings := s.readings ++ [reading] }
    if remaining ≤ 0 then (some false, failed)
    else
      let wait := min (min s.delay maxDelay) remaining
      -- the sleep takes what was asked for, and what it takes longer counts to the next probe
      (none, { failed with
        now := reading + wait
        delay := min (s.delay * ((2 : ℕ) : K)) maxDelay
        sleeps := s.sleeps ++ [wait] })

/-- The state before the first probe. -/
def initial (env : Environment K) : PollState K :=
  { attempt := 0, now := env.start, delay := 1, sleeps := [], readings := [] }

/-- What the clock says behind the probe `i`: all the time that has passed since the start, in the
probes up to it and in the sleeps before it. -/
def clock (env : Environment K) (sleeps : List K) (i : ℕ) : K :=
  env.start + ((List.range (i + 1)).map env.elapsed).sum + (sleeps.take i).sum

/-- The loop of both functions, with a bound on the number of probes. -/
def poll (env : Environment K) (timeout maxDelay : K) (fuel : ℕ) : Option (Bool × PollState K) :=
  loop (turn env (env.start + max timeout 0) maxDelay) fuel (initial env)

/-- `wait_for_database`, where the timeout may be left to the settings. -/
def waitForDatabase (env : Environment K) (databaseStartupTimeout : K) (timeout : Option K)
    (fuel : ℕ) (maxDelay : K := ((8 : ℕ) : K)) : Option (Bool × PollState K) :=
  poll env (timeout.getD databaseStartupTimeout) maxDelay fuel

/-- `_wait_for_database` of the bootstrap. -/
def bootstrapWaitForDatabase (env : Environment K) (timeout : K) (fuel : ℕ)
    (maxDelay : K := ((8 : ℕ) : K)) : Option (Bool × PollState K) :=
  poll env timeout maxDelay fuel

end Definitions

section Turns

variable {K : Type} [Field K] [LinearOrder K] [IsStrictOrderedRing K] {env : Environment K}
  {deadline maxDelay : K} {s s' : PollState K}

/-- The loop goes on behind a probe that fails before the deadline. -/
theorem turn_again (h : turn env deadline maxDelay s = (none, s')) :
    env.probe s.attempt = false ∧ s.now + env.elapsed s.attempt < deadline ∧
      ∃ wait, wait = min (min s.delay maxDelay) (deadline - (s.now + env.elapsed s.attempt)) ∧
        s' = { attempt := s.attempt + 1
               now := s.now + env.elapsed s.attempt + wait
               delay := min (s.delay * ((2 : ℕ) : K)) maxDelay
               sleeps := s.sleeps ++ [wait]
               readings := s.readings ++ [s.now + env.elapsed s.attempt] } := by
  unfold turn at h
  -- a probe that succeeds and one at the deadline both end the loop
  by_cases hprobe : env.probe s.attempt = true
  · rw [if_pos hprobe] at h
    cases h
  · rw [if_neg hprobe] at h
    by_cases hremaining : deadline - (s.now + env.elapsed s.attempt) ≤ 0
    · simp only [hremaining, if_true] at h
      cases h
    · simp only [hremaining, if_false] at h
      rw [Prod.mk.injEq] at h
      obtain ⟨-, rfl⟩ := h
      exact ⟨by simpa using hprobe, by linarith [not_le.mp hremaining], _, rfl, rfl⟩

omit [IsStrictOrderedRing K] in
/-- The loop ends behind a probe that succeeds, or that fails at the deadline or later. -/
theorem turn_answer {result : Bool} (h : turn env deadline maxDelay s = (some result, s')) :
    (env.probe s.attempt = true ∧ result = true ∧ s' = { s with attempt := s.attempt + 1 }) ∨
      (env.probe s.attempt = false ∧ result = false ∧
        deadline - (s.now + env.elapsed s.attempt) ≤ 0 ∧
        s' = { s with attempt := s.attempt + 1,
                      readings := s.readings ++ [s.now + env.elapsed s.attempt] }) := by
  unfold turn at h
  by_cases hprobe : env.probe s.attempt = true
  · rw [if_pos hprobe] at h
    cases h
    exact Or.inl ⟨hprobe, rfl, rfl⟩
  · rw [if_neg hprobe] at h
    by_cases hremaining : deadline - (s.now + env.elapsed s.attempt) ≤ 0
    · simp only [hremaining, if_true] at h
      cases h
      exact Or.inr ⟨by simpa using hprobe, rfl, hremaining, rfl⟩
    · simp only [hremaining, if_false] at h
      cases h

end Turns

section Runs

variable {K : Type} [Field K] [LinearOrder K] [IsStrictOrderedRing K] {env : Environment K}
  {window maxDelay : K} {s s' : PollState K}

/-- The invariant of the loop. Either a second has passed for each probe so far, or the last sleep
ended at the deadline. -/
structure IsPolling (env : Environment K) (window : K) (s : PollState K) : Prop where
  failed : ∀ i < s.attempt, env.probe i = false
  length_sleeps : s.sleeps.length = s.attempt
  readings_eq : s.readings = (List.range s.attempt).map (clock env s.sleeps)
  one_le_delay : 1 ≤ s.delay
  sleeps_pos : ∀ wait ∈ s.sleeps, 0 < wait
  sleeps_sum_le : s.sleeps.sum ≤ window
  now_eq : s.now = env.start + ((List.range s.attempt).map env.elapsed).sum + s.sleeps.sum
  progress : env.start + s.attempt ≤ s.now ∨ env.start + window ≤ s.now

/-- What an answer says. There is a sleep between any two probes, the clock is read behind every
probe that fails and says what has passed since the start, and the loop only gives up behind a
failed probe at the deadline or later. -/
structure IsOutcome (env : Environment K) (window : K) (result : Bool) (s : PollState K) :
    Prop where
  length_sleeps : s.sleeps.length + 1 = s.attempt
  sleeps_pos : ∀ wait ∈ s.sleeps, 0 < wait
  sleeps_sum_le : s.sleeps.sum ≤ window
  readings_eq : s.readings =
    (List.range (if result then s.attempt - 1 else s.attempt)).map (clock env s.sleeps)
  result_iff : result = true ↔ ∃ i < s.attempt, env.probe i = true
  expired : result = false → env.probe (s.attempt - 1) = false ∧
    env.start + window ≤ clock env s.sleeps (s.attempt - 1)

omit [IsStrictOrderedRing K] in
/-- A later sleep does not change what the clock has said. -/
theorem clock_concat (env : Environment K) {sleeps : List K} {i : ℕ}
    (hi : i ≤ sleeps.length) (wait : K) : clock env (sleeps ++ [wait]) i = clock env sleeps i := by
  rw [clock, clock, List.take_append_of_le_length hi]

omit [IsStrictOrderedRing K] in
/-- The clock behind the next probe. -/
theorem IsPolling.clock_eq (h : IsPolling env window s) :
    clock env s.sleeps s.attempt = s.now + env.elapsed s.attempt := by
  rw [clock, h.now_eq, List.take_of_length_le h.length_sleeps.le, List.range_succ, List.map_append,
    List.map_singleton, List.sum_append, List.sum_singleton]
  ring

/-- The time that the sleeps have taken has passed on the clock. -/
theorem IsPolling.slept (h : IsPolling env window s) : env.start + s.sleeps.sum ≤ s.now := by
  have helapsed : 0 ≤ ((List.range s.attempt).map env.elapsed).sum := by
    apply List.sum_nonneg
    rw [List.forall_mem_map]
    exact fun i _ => env.elapsed_nonneg i
  rw [h.now_eq]
  linarith

omit [IsStrictOrderedRing K] in
/-- Before the first probe nothing has been slept. -/
theorem isPolling_initial (env : Environment K) (hwindow : 0 ≤ window) :
    IsPolling env window (initial env) where
  failed := fun i hi => absurd hi (Nat.not_lt_zero i)
  length_sleeps := rfl
  readings_eq := rfl
  one_le_delay := le_rfl
  sleeps_pos := fun wait hwait => absurd hwait List.not_mem_nil
  sleeps_sum_le := by simpa [initial] using hwindow
  now_eq := by simp [initial]
  progress := Or.inl (by simp [initial])

/-- The loop only goes on while there have been less probes than seconds in the window. -/
theorem IsPolling.attempt_lt (h : IsPolling env window s)
    (hreading : s.now + env.elapsed s.attempt < env.start + window) : (s.attempt : K) < window := by
  have helapsed := env.elapsed_nonneg s.attempt
  rcases h.progress with hprogress | hprogress
  · linarith
  · linarith

/-- A full sleep takes a second, and one that is cut short ends at the deadline. -/
theorem IsPolling.progress_again (hmaxDelay : 1 ≤ maxDelay) (h : IsPolling env window s)
    (hreading : s.now + env.elapsed s.attempt < env.start + window) {wait : K}
    (hwait : wait = min (min s.delay maxDelay)
      (env.start + window - (s.now + env.elapsed s.attempt))) :
    env.start + ((s.attempt + 1 : ℕ) : K) ≤ s.now + env.elapsed s.attempt + wait ∨
      env.start + window ≤ s.now + env.elapsed s.attempt + wait := by
  have helapsed := env.elapsed_nonneg s.attempt
  have hdelay : 1 ≤ min s.delay maxDelay := le_min h.one_le_delay hmaxDelay
  rcases le_total (min s.delay maxDelay)
    (env.start + window - (s.now + env.elapsed s.attempt)) with hfull | hcut
  · rw [min_eq_left hfull] at hwait
    left
    rcases h.progress with hprogress | hprogress
    · push_cast
      linarith
    -- the clock has not passed the deadline, since the loop goes on
    · linarith
  · rw [min_eq_right hcut] at hwait
    right
    linarith

/-- A turn that does not return has slept inside the window, and the poll goes on. -/
theorem IsPolling.turn_again (hmaxDelay : 1 ≤ maxDelay) (h : IsPolling env window s)
    (hturn : turn env (env.start + window) maxDelay s = (none, s')) :
    IsPolling env window s' ∧ s'.attempt = s.attempt + 1 ∧ (s.attempt : K) < window := by
  obtain ⟨hprobe, hreading, wait, hwait, rfl⟩ := WaitForDatabase.turn_again hturn
  have helapsed := env.elapsed_nonneg s.attempt
  -- before the deadline a sleep is positive and fits into the window
  have hdelay : 1 ≤ min s.delay maxDelay := le_min h.one_le_delay hmaxDelay
  have hremaining : wait ≤ env.start + window - (s.now + env.elapsed s.attempt) :=
    hwait ▸ min_le_right _ _
  have hpos : 0 < wait := by
    rw [hwait]
    exact lt_min (zero_lt_one.trans_le hdelay) (by linarith)
  refine ⟨⟨?_, ?_, ?_, ?_, ?_, ?_, ?_, ?_⟩, rfl, h.attempt_lt hreading⟩
  · intro i hi
    rcases Nat.lt_succ_iff_lt_or_eq.mp hi with hlt | rfl
    · exact h.failed i hlt
    · exact hprobe
  · show (s.sleeps ++ [wait]).length = s.attempt + 1
    rw [List.length_append, List.length_singleton, h.length_sleeps]
  · -- the new reading is behind this probe, and the sleep comes after it
    show s.readings ++ [s.now + env.elapsed s.attempt] =
      (List.range (s.attempt + 1)).map (clock env (s.sleeps ++ [wait]))
    have hold : (List.range (s.attempt + 1)).map (clock env (s.sleeps ++ [wait])) =
        (List.range (s.attempt + 1)).map (clock env s.sleeps) := by
      apply List.map_congr_left
      intro i hi
      rw [List.mem_range] at hi
      exact clock_concat env (h.length_sleeps ▸ Nat.le_of_lt_succ hi) wait
    rw [hold, List.range_succ, List.map_append, List.map_singleton, h.clock_eq, h.readings_eq]
  · show 1 ≤ min (s.delay * ((2 : ℕ) : K)) maxDelay
    have := h.one_le_delay
    refine le_min ?_ hmaxDelay
    push_cast
    linarith
  · show ∀ w ∈ s.sleeps ++ [wait], 0 < w
    rw [List.forall_mem_append, List.forall_mem_singleton]
    exact ⟨h.sleeps_pos, hpos⟩
  · -- the sleeps so far have passed on the clock, and the last one ends before the deadline
    show (s.sleeps ++ [wait]).sum ≤ window
    have := h.slept
    rw [List.sum_append, List.sum_singleton]
    linarith
  · show s.now + env.elapsed s.attempt + wait = env.start +
      ((List.range (s.attempt + 1)).map env.elapsed).sum + (s.sleeps ++ [wait]).sum
    rw [h.now_eq, List.range_succ, List.map_append, List.map_singleton, List.sum_append,
      List.sum_singleton, List.sum_append, List.sum_singleton]
    ring
  · exact h.progress_again hmaxDelay hreading hwait

/-- A turn that returns ends the poll with an outcome. -/
theorem IsPolling.turn_answer (h : IsPolling env window s) {result : Bool}
    (hturn : turn env (env.start + window) maxDelay s = (some result, s')) :
    IsOutcome env window result s' := by
  obtain ⟨hprobe, rfl, rfl⟩ | ⟨hprobe, rfl, hremaining, rfl⟩ := WaitForDatabase.turn_answer hturn
  · exact ⟨congrArg (· + 1) h.length_sleeps, h.sleeps_pos, h.sleeps_sum_le, h.readings_eq,
      iff_of_true rfl ⟨_, Nat.lt_succ_self _, hprobe⟩, fun hfalse => by cases hfalse⟩
  · have hall : ∀ i < s.attempt + 1, env.probe i = false := by
      intro i hi
      rcases Nat.lt_succ_iff_lt_or_eq.mp hi with hlt | rfl
      · exact h.failed i hlt
      · exact hprobe
    refine ⟨congrArg (· + 1) h.length_sleeps, h.sleeps_pos, h.sleeps_sum_le, ?_,
      iff_of_false Bool.false_ne_true ?_, fun _ => ⟨?_, ?_⟩⟩
    · show s.readings ++ [s.now + env.elapsed s.attempt] =
        (List.range (s.attempt + 1)).map (clock env s.sleeps)
      rw [List.range_succ, List.map_append, List.map_singleton, h.clock_eq, h.readings_eq]
    · rintro ⟨i, hi, hsuccess⟩
      rw [hall i hi] at hsuccess
      exact absurd hsuccess Bool.false_ne_true
    · exact hall _ (Nat.pred_lt (Nat.succ_ne_zero _))
    · show env.start + window ≤ clock env s.sleeps s.attempt
      rw [h.clock_eq]
      linarith

variable [Archimedean K]

/-- The loop gives an answer after finitely many probes, however many more it may make. -/
theorem poll_outcome (env : Environment K) (timeout : K) (hmaxDelay : 1 ≤ maxDelay) :
    ∃ result s, (∃ bound, ∀ fuel, bound ≤ fuel →
        poll env timeout maxDelay fuel = some (result, s)) ∧
      IsOutcome env (max timeout 0) result s := by
  have hinitial : IsPolling env (max timeout 0) (initial env) :=
    isPolling_initial env (le_max_right timeout 0)
  obtain ⟨seconds, hseconds⟩ := exists_nat_ge (max timeout 0)
  have hagain : ∀ s s', IsPolling env (max timeout 0) s →
      turn env (env.start + max timeout 0) maxDelay s = (none, s') →
      IsPolling env (max timeout 0) s' ∧ seconds - s'.attempt < seconds - s.attempt := by
    intro s s' h hturn
    obtain ⟨h', hattempt, hlt⟩ := h.turn_again hmaxDelay hturn
    have hlt' : s.attempt < seconds := Nat.cast_lt.mp (hlt.trans_le hseconds)
    refine ⟨h', ?_⟩
    rw [hattempt]
    omega
  -- the seconds that no probe has used up decrease from turn to turn
  obtain ⟨⟨result, s⟩, hloop⟩ := loop_terminates (fun s => seconds - s.attempt) hagain hinitial
    (Nat.lt_succ_of_le (Nat.sub_le _ _))
  refine ⟨result, s, ⟨seconds + 1, fun fuel hfuel => loop_mono hfuel hloop⟩, ?_⟩
  exact loop_spec (fun s s' h hturn => (h.turn_again hmaxDelay hturn).1)
    (fun s answer s' h hturn => h.turn_answer hturn) hinitial hloop

/-- Both functions give an answer, ask for no more sleep than the window has, report success exactly
when a probe has succeeded, and failure only behind a failed probe at the deadline or later. -/
theorem waitForDatabase_spec (env : Environment K) :
    (∀ (databaseStartupTimeout : K) (timeout : Option K),
      ∃ result s, (∃ bound, ∀ fuel, bound ≤ fuel →
          waitForDatabase env databaseStartupTimeout timeout fuel = some (result, s)) ∧
        IsOutcome env (max (timeout.getD databaseStartupTimeout) 0) result s) ∧
      ∀ timeout : K,
        ∃ result s, (∃ bound, ∀ fuel, bound ≤ fuel →
            bootstrapWaitForDatabase env timeout fuel = some (result, s)) ∧
          IsOutcome env (max timeout 0) result s := by
  have hmaxDelay : (1 : K) ≤ ((8 : ℕ) : K) := Nat.one_le_cast.mpr (by decide)
  exact ⟨fun startup timeout => poll_outcome env (timeout.getD startup) hmaxDelay,
    fun timeout => poll_outcome env timeout hmaxDelay⟩

/-- The database answers the third probe, and every probe takes half a second. -/
def thirdProbe : Environment ℚ where
  start := 0
  probe := fun attempt => attempt == 2
  elapsed := fun _ => 1 / 2
  elapsed_nonneg := fun _ => by norm_num

/-- The database answers at the third probe. -/
theorem waitForDatabase_spec_thirdProbe :
    (∀ (databaseStartupTimeout : ℚ) (timeout : Option ℚ),
      ∃ result s, (∃ bound, ∀ fuel, bound ≤ fuel →
          waitForDatabase thirdProbe databaseStartupTimeout timeout fuel = some (result, s)) ∧
        IsOutcome thirdProbe (max (timeout.getD databaseStartupTimeout) 0) result s) ∧
      ∀ timeout : ℚ,
        ∃ result s, (∃ bound, ∀ fuel, bound ≤ fuel →
            bootstrapWaitForDatabase thirdProbe timeout fuel = some (result, s)) ∧
          IsOutcome thirdProbe (max timeout 0) result s :=
  waitForDatabase_spec thirdProbe

end Runs

end TradingSimulator.WaitForDatabase
