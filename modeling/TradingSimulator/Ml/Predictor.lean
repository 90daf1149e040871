import Mathlib.Algebra.Order.Group.Unbundled.Basic
import Mathlib.Order.Interval.Set.Defs
import Mathlib.Tactic.Linarith
import TradingSimulator.Library.ExtNum
import TradingSimulator.Library.Runs

/-!
# The model manager

`ModelManager` (`app/ml/predictor.py`): the model is loaded by the first thread that needs it, under
a lock that is only taken while the flag is not set. Threads run in any interleaving; a step is one
read or write of what they share. What an attempt to load ends with is part of the step.

At most one attempt is ever made, and every call of `load` returns what it has ended with
(`load_once`), although most of them read the model without the lock.
-/

namespace TradingSimulator

/-- What the `try` of `load` ends with. -/
inductive LoadAttempt (M : Type) where
  /-- TensorFlow or the file is missing, or the file is not a valid one. -/
  | unavailable
  | loads (model : M)
  | raises
  deriving DecidableEq

/-- Where a thread stands in `load`. -/
inductive LoadPoint where
  | outside
  | waiting
  /-- It holds the lock, before the second check. -/
  | entered
  | trying
  /-- `_model` is written and `_loaded` is not. The flag says whether the `return` is inside the
  `with`. -/
  | stored (inside : Bool)
  /-- Before the `return` inside the `with`. -/
  | returningInside
  /-- At the end of the `with`. -/
  | leaving (returned : Bool)
  /-- Before a `return` outside the `with`. -/
  | returning
  deriving DecidableEq

/-- The thread holds the lock. -/
def LoadPoint.owns : LoadPoint → Bool
  | .entered | .trying | .stored _ | .returningInside | .leaving _ => true
  | _ => false

/-- The flag is set. -/
def LoadPoint.settled : LoadPoint → Bool
  | .returningInside | .leaving _ | .returning => true
  | _ => false

/-- The manager with its threads, what the attempts have ended with and what the calls of `load`
have returned. -/
structure ModelManager (M : Type) where
  model : Option M
  loaded : Bool
  holder : Option ℕ
  threads : ℕ → LoadPoint
  outcomes : List (Option M)
  returned : List (Option M)

namespace ModelManager

variable {M : Type}

/-- `__init__`. -/
def init : ModelManager M where
  model := none
  loaded := false
  holder := none
  threads := fun _ => .outside
  outcomes := []
  returned := []

/-- A thread goes on. -/
def goto (s : ModelManager M) (t : ℕ) (point : LoadPoint) : ModelManager M :=
  { s with threads := Function.update s.threads t point }

/-- The next step of a thread. A thread that is outside calls `load`. -/
def step (s : ModelManager M) (event : ℕ × LoadAttempt M) : ModelManager M :=
  let t := event.1
  match s.threads t with
  | .outside => s.goto t (if s.loaded = true then .returning else .waiting)
  | .waiting => if s.holder = none then { s with holder := some t }.goto t .entered else s
  | .entered => s.goto t (if s.loaded = true then .returningInside else .trying)
  | .trying =>
    match event.2 with
    | .unavailable =>
      { s with model := none, outcomes := s.outcomes ++ [none] }.goto t (.stored true)
    | .loads model =>
      { s with model := some model, outcomes := s.outcomes ++ [some model] }.goto t (.stored false)
    | .raises =>
      { s with model := none, outcomes := s.outcomes ++ [none] }.goto t (.stored false)
  | .stored inside =>
    { s with loaded := true }.goto t (if inside then .returningInside else .leaving false)
  | .returningInside => { s with returned := s.returned ++ [s.model] }.goto t (.leaving true)
  | .leaving returned =>
    { s with holder := none }.goto t (if returned then .outside else .returning)
  | .returning => { s with returned := s.returned ++ [s.model] }.goto t .outside

/-- A run of the threads. -/
def run (events : List (ℕ × LoadAttempt M)) : ModelManager M := events.foldl step init

/-! ### One attempt -/

/-- The manager between two steps. -/
structure Inv (s : ModelManager M) : Prop where
  owner : ∀ t, (s.threads t).owns = true → s.holder = some t
  /-- The flag is set where the model is read. -/
  settled : ∀ t, (s.threads t).settled = true → s.loaded = true
  known : s.loaded = true → s.outcomes = [s.model]
  stored : ∀ t inside, s.threads t = .stored inside → s.outcomes = [s.model]
  trying : ∀ t, s.threads t = .trying → s.outcomes = []
  /-- An attempt has ended when the flag is set, or about to be. -/
  ended : s.outcomes ≠ [] → s.loaded = true ∨ ∃ t inside, s.threads t = .stored inside
  returned : ∀ result ∈ s.returned, s.outcomes = [result]

/-- No thread has started. -/
theorem inv_init : (init : ModelManager M).Inv where
  owner t h := by simp [init, LoadPoint.owns] at h
  settled t h := by simp [init, LoadPoint.settled] at h
  known h := by simp [init] at h
  stored t inside h := by simp [init] at h
  trying t h := by simp [init] at h
  ended h := by simp [init] at h
  returned result h := by simp [init] at h

namespace Inv

variable {s : ModelManager M} {t : ℕ} {point : LoadPoint}

/-- While the lock is held by a thread, no other one owns it. -/
theorem eq_of_owns (h : s.Inv) {t t' : ℕ} (ht : (s.threads t).owns = true)
    (ht' : (s.threads t').owns = true) : t = t' :=
  Option.some.inj ((h.owner t ht).symm.trans (h.owner t' ht'))

/-- A thread goes on and changes nothing that is shared. -/
theorem goto (h : s.Inv) (howner : point.owns = true → s.holder = some t)
    (hsettled : point.settled = true → s.loaded = true) (hstored : ∀ inside, point ≠ .stored inside)
    (htrying : point = .trying → s.outcomes = [])
    (hleaves : ∀ inside, s.threads t = .stored inside → s.loaded = true) :
    (s.goto t point).Inv where
  owner t' h' := by
    by_cases ht : t' = t
    · subst ht
      -- the hypotheses are about the thread that goes on, the others have not moved
      exact howner (by simpa [ModelManager.goto] using h')
    · exact h.owner t' (by simpa [ModelManager.goto, ht] using h')
  settled t' h' := by
    by_cases ht : t' = t
    · subst ht
      exact hsettled (by simpa [ModelManager.goto] using h')
    · exact h.settled t' (by simpa [ModelManager.goto, ht] using h')
  known := h.known
  stored t' inside h' := by
    by_cases ht : t' = t
    · subst ht
      exact absurd (by simpa [ModelManager.goto] using h') (hstored inside)
    · exact h.stored t' inside (by simpa [ModelManager.goto, ht] using h')
  trying t' h' := by
    by_cases ht : t' = t
    · subst ht
      exact htrying (by simpa [ModelManager.goto] using h')
    · exact h.trying t' (by simpa [ModelManager.goto, ht] using h')
  ended houtcomes := by
    -- the load had ended before, and the thread that stored it may have gone on
    rcases h.ended houtcomes with hloaded | ⟨t', inside, ht'⟩
    · exact .inl hloaded
    · by_cases ht : t' = t
      · exact .inl (hleaves inside (ht ▸ ht'))
      · exact .inr ⟨t', inside, by simpa [ModelManager.goto, ht] using ht'⟩
  returned := h.returned

/-- A thread takes the free lock. -/
theorem acquired (h : s.Inv) (hfree : s.holder = none) :
    ({ s with holder := some t } : ModelManager M).Inv where
  owner t' howns := by
    have howner := h.owner t' howns
    rw [hfree] at howner
    exact absurd howner (by simp)
  settled := h.settled
  known := h.known
  stored := h.stored
  trying := h.trying
  ended := h.ended
  returned := h.returned

/-- The thread that holds the lock gives it back. -/
theorem released (h : s.Inv) (ht : (s.threads t).owns = true) (hgoto : (s.goto t point).Inv)
    (hpoint : point.owns = false) :
    (({ s with holder := none } : ModelManager M).goto t point).Inv where
  owner t' howns := by
    by_cases hsame : t' = t
    · subst hsame
      simp [ModelManager.goto, hpoint] at howns
    · have howns' : (s.threads t').owns = true := by simpa [ModelManager.goto, hsame] using howns
      exact absurd (h.eq_of_owns howns' ht) hsame
  settled := hgoto.settled
  known := hgoto.known
  stored := hgoto.stored
  trying := hgoto.trying
  ended := hgoto.ended
  returned := hgoto.returned

/-- The flag is set after the attempt. -/
theorem flagged (h : s.Inv) {inside : Bool} (ht : s.threads t = .stored inside) :
    ({ s with loaded := true } : ModelManager M).Inv where
  owner := h.owner
  settled _ _ := rfl
  known _ := h.stored t inside ht
  stored := h.stored
  trying := h.trying
  ended _ := .inl rfl
  returned := h.returned

/-- A call returns what the attempt has ended with. -/
theorem returns (h : s.Inv) (hloaded : s.loaded = true) :
    ({ s with returned := s.returned ++ [s.model] } : ModelManager M).Inv where
  owner := h.owner
  settled := h.settled
  known := h.known
  stored := h.stored
  trying := h.trying
  ended := h.ended
  returned result hresult := by
    rcases List.mem_append.mp hresult with hresult | hresult
    · exact h.returned result hresult
    · rw [List.mem_singleton.mp hresult]
      exact h.known hloaded

/-- The thread that tries ends the only attempt. -/
theorem attempted (h : s.Inv) (ht : s.threads t = .trying) (model : Option M) (inside : Bool) :
    (({ s with model, outcomes := s.outcomes ++ [model] } : ModelManager M).goto t
      (.stored inside)).Inv where
  owner t' h' := by
    by_cases hsame : t' = t
    · subst hsame
      exact h.owner t' (by rw [ht]; rfl)
    · exact h.owner t' (by simpa [ModelManager.goto, hsame] using h')
  settled t' h' := by
    by_cases hsame : t' = t
    · subst hsame
      simp [ModelManager.goto, LoadPoint.settled] at h'
    · exact h.settled t' (by simpa [ModelManager.goto, hsame] using h')
  known hloaded := by simp [ModelManager.goto, h.trying t ht]
  stored t' inside' _ := by simp [ModelManager.goto, h.trying t ht]
  trying t' h' := by
    by_cases hsame : t' = t
    · subst hsame
      simp [ModelManager.goto] at h'
    · -- two threads that try would both hold the lock
      have ht' : s.threads t' = .trying := by simpa [ModelManager.goto, hsame] using h'
      exact absurd (h.eq_of_owns (by rw [ht']; rfl) (by rw [ht]; rfl)) hsame
  ended _ := .inr ⟨t, inside, by simp [ModelManager.goto]⟩
  returned result hresult := by
    have hnone := h.returned result hresult
    rw [h.trying t ht] at hnone
    exact absurd hnone (by simp)

/-- Every step keeps the invariant. -/
theorem step (h : s.Inv) (event : ℕ × LoadAttempt M) : (s.step event).Inv := by
  obtain ⟨t, attempt⟩ := event
  unfold ModelManager.step
  dsimp only
  rcases ht : s.threads t with _ | _ | _ | _ | inside | _ | returned | _ <;> dsimp only
  · -- the first check
    split_ifs with hloaded
    · exact h.goto (by simp [LoadPoint.owns]) (fun _ => hloaded) (by simp) (by simp) (by simp [ht])
    · exact h.goto (by simp [LoadPoint.owns]) (by simp [LoadPoint.settled]) (by simp) (by simp)
        (by simp [ht])
  · split_ifs with hfree
    · exact (h.acquired hfree).goto (fun _ => rfl) (by simp [LoadPoint.settled]) (by simp) (by simp)
        (by simp [ht])
    · exact h
  · -- the second check
    split_ifs with hloaded
    · exact h.goto (fun _ => h.owner t (by rw [ht]; rfl)) (fun _ => hloaded) (by simp) (by simp)
        (by simp [ht])
    · refine h.goto (fun _ => h.owner t (by rw [ht]; rfl)) (by simp [LoadPoint.settled]) (by simp)
        (fun _ => ?_) (by simp [ht])
      by_contra houtcomes
      rcases h.ended houtcomes with hloaded' | ⟨t', inside, ht'⟩
      · exact hloaded hloaded'
      · obtain rfl : t = t' := h.eq_of_owns (by rw [ht]; rfl) (by rw [ht']; rfl)
        simp [ht] at ht'
  · rcases attempt with _ | model | _
    · exact h.attempted ht none true
    · exact h.attempted ht (some model) false
    · exact h.attempted ht none false
  · refine (h.flagged ht).goto (fun _ => h.owner t (by rw [ht]; rfl)) (fun _ => rfl) ?_ ?_
      fun _ _ => rfl
    · rcases inside <;> simp
    · rcases inside <;> simp
  · have hloaded := h.settled t (by rw [ht]; rfl)
    exact (h.returns hloaded).goto (fun _ => h.owner t (by rw [ht]; rfl)) (fun _ => hloaded)
      (by simp) (by simp) (by simp [ht])
  · have hloaded := h.settled t (by rw [ht]; rfl)
    have hpoint : (if returned = true then LoadPoint.outside else .returning).owns = false := by
      rcases returned <;> rfl
    refine h.released (by rw [ht]; rfl) (h.goto ?_ (fun _ => hloaded) ?_ ?_ ?_) hpoint
    · simp [hpoint]
    · rcases returned <;> simp
    · rcases returned <;> simp
    · simp [ht]
  · have hloaded := h.settled t (by rw [ht]; rfl)
    exact (h.returns hloaded).goto (by simp [LoadPoint.owns]) (by simp [LoadPoint.settled])
      (by simp) (by simp) (by simp [ht])

end Inv

theorem inv_run (events : List (ℕ × LoadAttempt M)) : (run events).Inv :=
  Runs.foldl_invariant (A := fun _ => True) (J := Inv) (fun _ event _ h => h.step event) inv_init
    fun _ _ => trivial

/-- Whatever the interleaving, the model is loaded at most once, and every call of `load` returns
what the only attempt has ended with. -/
theorem load_once (events : List (ℕ × LoadAttempt M)) :
    (run events).outcomes.length ≤ 1 ∧
      ∀ result ∈ (run events).returned, (run events).outcomes = [result] := by
  have h := inv_run events
  refine ⟨?_, h.returned⟩
  by_cases houtcomes : (run events).outcomes = []
  · simp [houtcomes]
  · rcases h.ended houtcomes with hloaded | ⟨t, inside, ht⟩
    · simp [h.known hloaded]
    · simp [h.stored t inside ht]

/-! ### Predictions -/

/-- `predict` with the model that `load` has returned. A forward pass may raise. -/
def predict {D K : Type} [Field K] [LinearOrder K] (forward : M → D → Option (ExtNum K))
    (model : Option M) (data : D) : K :=
  match model with
  | none => 0
  | some model =>
    match forward model data with
    | some (.fin value) => max (min value 1) (-1)
    | _ => 0

/-- A prediction is a return between minus one and one, whatever the model gives. -/
theorem predict_mem {D K : Type} [Field K] [LinearOrder K] [IsStrictOrderedRing K]
    (forward : M → D → Option (ExtNum K)) (model : Option M) (data : D) :
    predict forward model data ∈ Set.Icc (-1 : K) 1 := by
  have hzero : (0 : K) ∈ Set.Icc (-1 : K) 1 := by simp
  have hone : (-1 : K) ≤ 1 := by linarith
  rcases model with _ | model
  · exact hzero
  · unfold predict
    dsimp only
    split
    · exact ⟨le_max_right _ _, max_le (min_le_right _ _) hone⟩
    · exact hzero

end ModelManager

end TradingSimulator
