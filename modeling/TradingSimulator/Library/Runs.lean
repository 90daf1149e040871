import Mathlib.Data.List.Infix
import Mathlib.Logic.Function.Basic

/-!
# Runs of a step function

Two ways of letting a system take step after step, with the induction rule of each.

* For a step function that always succeeds, a run is a left fold over its inputs. `Always` says
  that a property holds in every state the run passes through and `EveryStep` that a condition
  holds at every step the run takes; `always_iff_everyStep` turns an exact one-step condition into
  an exact condition on whole runs.
* For a step function that may be blocked, `exec` runs inputs as long as none of them is, and
  `exec_invariant` is its induction rule.
-/

namespace Runs

variable {σ ι : Type*}

/-- What holds of all steps of an extended run: it holds of the steps so far and of the last one. -/
theorem forall_prefix_concat {P : List ι → ι → Prop} {inputs : List ι} {last : ι} :
    (∀ done i, done ++ [i] <+: inputs ++ [last] → P done i) ↔
      (∀ done i, done ++ [i] <+: inputs → P done i) ∧ P inputs last := by
  constructor
  · intro h
    exact ⟨fun done i hdone => h done i (hdone.trans (List.prefix_append _ _)),
      h inputs last List.prefix_rfl⟩
  · rintro ⟨hinputs, hlast⟩ done i hdone
    rcases List.prefix_concat_iff.mp hdone with heq | hprefix
    · obtain ⟨rfl, rfl⟩ := List.append_inj' heq rfl |>.imp_right List.singleton_inj.mp
      exact hlast
    · exact hinputs done i hprefix

section Total

variable (step : σ → ι → σ)

/-- `P` holds in every state the run over `inputs` passes through, both ends included. -/
def Always (P : σ → Prop) (s : σ) (inputs : List ι) : Prop :=
  ∀ done, done <+: inputs → P (done.foldl step s)

/-- `C` holds of the state and the input at every step of the run over `inputs`. -/
def EveryStep (C : σ → ι → Prop) (s : σ) (inputs : List ι) : Prop :=
  ∀ done i, done ++ [i] <+: inputs → C (done.foldl step s) i

variable {step}

theorem always_nil {P : σ → Prop} {s : σ} : Always step P s [] ↔ P s := by
  simp [Always]

/-- The state before the first step, and then the rest of the run. -/
theorem always_cons {P : σ → Prop} {s : σ} {i : ι} {inputs : List ι} :
    Always step P s (i :: inputs) ↔ P s ∧ Always step P (step s i) inputs := by
  constructor
  · intro h
    refine ⟨h [] List.nil_prefix, fun done hdone => ?_⟩
    exact h (i :: done) (List.cons_prefix_cons.mpr ⟨rfl, hdone⟩)
  · rintro ⟨hs, h⟩ done hdone
    cases done with
    | nil => exact hs
    | cons j done =>
      obtain ⟨rfl, htail⟩ := List.cons_prefix_cons.mp hdone
      exact h done htail

theorem everyStep_nil {C : σ → ι → Prop} {s : σ} : EveryStep step C s [] := by
  intro done i h
  simp at h

/-- The first step, and then the rest of the run. -/
theorem everyStep_cons {C : σ → ι → Prop} {s : σ} {i : ι} {inputs : List ι} :
    EveryStep step C s (i :: inputs) ↔ C s i ∧ EveryStep step C (step s i) inputs := by
  constructor
  · intro h
    refine ⟨h [] i (by simp), fun done j hdone => ?_⟩
    exact h (i :: done) j (List.cons_prefix_cons.mpr ⟨rfl, hdone⟩)
  · rintro ⟨hs, h⟩ done j hdone
    cases done with
    | nil =>
      obtain ⟨rfl, -⟩ := List.cons_prefix_cons.mp hdone
      exact hs
    | cons k done =>
      obtain ⟨rfl, htail⟩ := List.cons_prefix_cons.mp hdone
      exact h done j htail

/-- A condition holds at every step of a run in two parts when it does in both. -/
theorem everyStep_append {C : σ → ι → Prop} {s : σ} {first second : List ι} :
    EveryStep step C s (first ++ second) ↔
      EveryStep step C s first ∧ EveryStep step C (first.foldl step s) second := by
  induction first generalizing s with
  | nil => simp [everyStep_nil]
  | cons i first ih => rw [List.cons_append, everyStep_cons, everyStep_cons, ih, and_assoc,
      List.foldl_cons]

/-- A property that every step keeps holds after every run. -/
theorem foldl_invariant {A : ι → Prop} {J : σ → Prop}
    (hstep : ∀ s i, A i → J s → J (step s i)) {s : σ} (hs : J s) {inputs : List ι}
    (hinputs : ∀ i ∈ inputs, A i) : J (inputs.foldl step s) := by
  induction inputs generalizing s with
  | nil => exact hs
  | cons i inputs ih =>
    rw [List.forall_mem_cons] at hinputs
    exact ih (hstep s i hinputs.1 hs) hinputs.2

/-- If, from a state with the invariant `J` and the property `P`, one step keeps `P` exactly when
`C` holds before it, then a run keeps `P` throughout exactly when all its steps meet `C`. -/
theorem always_iff_everyStep {A : ι → Prop} {J P : σ → Prop} {C : σ → ι → Prop}
    (hJ : ∀ s i, A i → J s → J (step s i))
    (hiff : ∀ s i, A i → J s → P s → (P (step s i) ↔ C s i))
    {s : σ} (hs : J s) (hP : P s) {inputs : List ι} (hinputs : ∀ i ∈ inputs, A i) :
    Always step P s inputs ↔ EveryStep step C s inputs := by
  -- along the run, with both the invariant and the property of the state reached so far
  induction inputs generalizing s with
  | nil => simpa [always_nil, everyStep_nil] using hP
  | cons i inputs ih =>
    rw [List.forall_mem_cons] at hinputs
    rw [always_cons, everyStep_cons, ← hiff s i hinputs.1 hs hP]
    constructor
    · -- the first step has kept `P`, so the rest of the run starts from a state with `P`
      rintro ⟨-, h⟩
      have hPi : P (step s i) := h [] List.nil_prefix
      exact ⟨hPi, (ih (hJ s i hinputs.1 hs) hPi hinputs.2).mp h⟩
    · rintro ⟨hPi, h⟩
      exact ⟨hP, (ih (hJ s i hinputs.1 hs) hPi hinputs.2).mpr h⟩

/-- If every step that meets `C` keeps `J`, a run all of whose steps meet `C` keeps `J`
throughout. -/
theorem always_of_everyStep {J : σ → Prop} {C : σ → ι → Prop}
    (hstep : ∀ s i, J s → C s i → J (step s i)) {s : σ} (hs : J s) {inputs : List ι}
    (hinputs : EveryStep step C s inputs) : Always step J s inputs := by
  induction inputs generalizing s with
  | nil => exact always_nil.mpr hs
  | cons i inputs ih =>
    rw [everyStep_cons] at hinputs
    exact always_cons.mpr ⟨hs, ih (hstep s i hs hinputs.1) hinputs.2⟩

/-- Two conditions that agree on every step from a state with the invariant `J` hold of the same
runs. -/
theorem everyStep_congr {A : ι → Prop} {J : σ → Prop} {C D : σ → ι → Prop}
    (hJ : ∀ s i, A i → J s → J (step s i)) (hiff : ∀ s i, A i → J s → (C s i ↔ D s i))
    {s : σ} (hs : J s) {inputs : List ι} (hinputs : ∀ i ∈ inputs, A i) :
    EveryStep step C s inputs ↔ EveryStep step D s inputs := by
  induction inputs generalizing s with
  | nil => exact iff_of_true everyStep_nil everyStep_nil
  | cons i inputs ih =>
    rw [List.forall_mem_cons] at hinputs
    rw [everyStep_cons, everyStep_cons, hiff s i hinputs.1 hs,
      ih (hJ s i hinputs.1 hs) hinputs.2]

end Total

section Partial

variable (step : σ → ι → Option σ)

/-- Run the inputs in order; `none` when one of their steps is blocked. -/
def exec (s : σ) (inputs : List ι) : Option σ :=
  inputs.foldlM step s

variable {step}

/-- A property that every admitted step keeps holds after every run that is not blocked. -/
theorem exec_invariant {A : ι → Prop} {J : σ → Prop}
    (hstep : ∀ s i s', A i → J s → step s i = some s' → J s') {s s' : σ} (hs : J s)
    {inputs : List ι} (hinputs : ∀ i ∈ inputs, A i) (h : exec step s inputs = some s') : J s' := by
  induction inputs generalizing s with
  | nil =>
    simp only [exec, List.foldlM_nil, Option.pure_def, Option.some.injEq] at h
    exact h ▸ hs
  | cons i inputs ih =>
    rw [List.forall_mem_cons] at hinputs
    rw [exec, List.foldlM_cons, Option.bind_eq_bind, Option.bind_eq_some_iff] at h
    obtain ⟨mid, hmid, hrest⟩ := h
    exact ih (hstep s i mid hinputs.1 hs hmid) hinputs.2 hrest

end Partial

end Runs
