import Mathlib.Data.List.Basic

/-!
# Single flight

A call that takes time is shared: whoever needs its result while a call is in flight joins that
one, and only when there is none a new call is started. The calls are numbered in the order in
which they are started. A call is answered first, then it gives up its place, and only then those
who have joined it see the result.

The structure `Flights` carries the invariant of the pattern: the call that holds the place is the
only one that is not over. So at most one call is running (`eq_of_running`).
-/

namespace SingleFlight

/-- How far a call is. The result is `none` when the call has failed. -/
inductive Phase (β : Type) where
  | running
  | answered (result : Option β)
  | over (result : Option β)

/-- A call that has not given up its place. -/
def Phase.Active {β : Type} : Phase β → Prop
  | .running => True
  | .answered _ => True
  | .over _ => False

/-- The calls so far, and the one that can be joined. -/
structure Flights (β : Type) where
  calls : List (Phase β)
  current : Option ℕ
  /-- The call that can be joined is the one that is not over. -/
  current_iff : ∀ k, current = some k ↔ ∃ phase, calls[k]? = some phase ∧ phase.Active

namespace Flights

variable {β : Type}

/-- No call has been started. -/
def none : Flights β where
  calls := []
  current := Option.none
  current_iff := by simp

/-- Call `k` has not been answered. -/
def Running (flights : Flights β) (k : ℕ) : Prop := flights.calls[k]? = some .running

/-- At most one call is running. -/
theorem eq_of_running {flights : Flights β} {j k : ℕ} (hj : flights.Running j)
    (hk : flights.Running k) : j = k := by
  have hcurrent := (flights.current_iff j).mpr ⟨_, hj, trivial⟩
  exact Option.some.inj (hcurrent.symm.trans ((flights.current_iff k).mpr ⟨_, hk, trivial⟩))

/-- Start a call when there is none to join. -/
def start (flights : Flights β) (h : flights.current = Option.none) : Flights β where
  calls := flights.calls ++ [.running]
  current := some flights.calls.length
  current_iff k := by
    rcases Nat.lt_trichotomy k flights.calls.length with hlt | rfl | hgt
    · -- none of the calls so far is active
      have hnone := (flights.current_iff k).not.mp (by rw [h]; exact nofun)
      rw [List.getElem?_append_left hlt]
      refine iff_of_false (fun heq => ?_) hnone
      have hlength := Option.some.inj heq
      omega
    · simp [Phase.Active]
    · rw [List.getElem?_eq_none (by simp only [List.length_append, List.length_singleton]; omega)]
      refine iff_of_false (fun heq => ?_) (by simp)
      have hlength := Option.some.inj heq
      omega

/-- Join the call in flight, or start one: the calls afterwards and the call that was joined. -/
def join (flights : Flights β) : Flights β × ℕ :=
  match h : flights.current with
  | some k => (flights, k)
  | Option.none => (flights.start h, flights.calls.length)

/-- The answer to a running call. -/
def answer (flights : Flights β) (k : ℕ) (result : Option β) : Option (Flights β) :=
  match h : flights.calls[k]? with
  | some .running =>
    some {
      calls := flights.calls.set k (.answered result)
      current := flights.current
      current_iff := fun j => by
        rw [flights.current_iff j]
        rcases eq_or_ne k j with rfl | hne
        · have hlt : k < flights.calls.length := (List.getElem?_eq_some_iff.mp h).1
          rw [List.getElem?_set_self hlt, h]
          exact iff_of_true ⟨_, rfl, trivial⟩ ⟨_, rfl, trivial⟩
        · rw [List.getElem?_set_ne hne] }
  | _ => Option.none

/-- An answered call gives up its place. -/
def finish (flights : Flights β) (k : ℕ) : Option (Flights β) :=
  match h : flights.calls[k]? with
  | some (.answered result) =>
    some {
      calls := flights.calls.set k (.over result)
      current := Option.none
      current_iff := fun j => by
        refine iff_of_false nofun ?_
        rintro ⟨phase, hphase, hactive⟩
        rcases eq_or_ne k j with rfl | hne
        · rw [List.getElem?_set_self (List.getElem?_eq_some_iff.mp h).1] at hphase
          cases hphase
          exact hactive
        · -- the only active call was the one that is over now
          rw [List.getElem?_set_ne hne] at hphase
          have hj := (flights.current_iff j).mpr ⟨phase, hphase, hactive⟩
          have hk := (flights.current_iff k).mpr ⟨_, h, trivial⟩
          exact hne (Option.some.inj (hk.symm.trans hj)) }
  | _ => Option.none

/-! ### What the operations do to the calls -/

/-- Who comes while a flight is running joins it. -/
theorem join_of_current {flights : Flights β} {k : ℕ} (h : flights.current = some k) :
    flights.join = (flights, k) := by
  unfold join
  split
  · next j hj => rw [Option.some.inj (hj.symm.trans h)]
  · next hnone => exact absurd (hnone.symm.trans h) nofun

/-- Joining keeps the calls so far, and the joined call is active. -/
theorem join_spec (flights : Flights β) :
    (∀ (k : ℕ) (phase : Phase β), flights.calls[k]? = some phase →
        flights.join.1.calls[k]? = some phase) ∧
      ∃ phase, flights.join.1.calls[flights.join.2]? = some phase ∧ phase.Active := by
  unfold join
  split
  · next k hk => exact ⟨fun _ _ h => h, (flights.current_iff k).mp hk⟩
  · refine ⟨fun k phase h => ?_, .running, by simp [start], trivial⟩
    rw [← h]
    exact List.getElem?_append_left (List.getElem?_eq_some_iff.mp h).1

/-- Only a running flight is answered. -/
theorem answer_spec {flights next : Flights β} {k : ℕ} {result : Option β}
    (h : flights.answer k result = some next) :
    flights.Running k ∧ next.calls = flights.calls.set k (.answered result) := by
  unfold answer at h
  split at h
  · next hk =>
    cases h
    exact ⟨hk, rfl⟩
  · cases h

/-- A flight is over with the result that it was answered with. -/
theorem finish_spec {flights next : Flights β} {k : ℕ} (h : flights.finish k = some next) :
    ∃ result, flights.calls[k]? = some (.answered result) ∧
      next.calls = flights.calls.set k (.over result) := by
  unfold finish at h
  split at h
  · next result hk =>
    cases h
    exact ⟨result, hk, rfl⟩
  · cases h

end Flights

end SingleFlight
