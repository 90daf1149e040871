import Mathlib.Data.List.Basic

/-!
# Machines that answer

A machine takes one input after another, answers each and changes its state. `answers` is what an
observer sees of a run. A machine refines another one when a relation between their states, once it
holds, goes on holding and makes every answer the same (`Refines`); then no sequence of inputs tells
the two apart (`Refines.answers_eq`), although their states may have nothing in common.
-/

namespace Machines

variable {σ τ υ ι ο : Type*}

/-- A machine with states `σ`, inputs `ι` and answers `ο`. -/
abbrev Machine (σ ι ο : Type*) := σ → ι → ο × σ

/-- The answers of a run. -/
def answers (m : Machine σ ι ο) : σ → List ι → List ο
  | _, [] => []
  | s, i :: inputs => (m s i).1 :: answers m (m s i).2 inputs

/-- The state after a run. -/
def after (m : Machine σ ι ο) : σ → List ι → σ
  | s, [] => s
  | s, i :: inputs => after m (m s i).2 inputs

@[simp]
theorem answers_nil (m : Machine σ ι ο) (s : σ) : answers m s [] = [] := rfl

@[simp]
theorem answers_cons (m : Machine σ ι ο) (s : σ) (i : ι) (inputs : List ι) :
    answers m s (i :: inputs) = (m s i).1 :: answers m (m s i).2 inputs := rfl

@[simp]
theorem after_nil (m : Machine σ ι ο) (s : σ) : after m s [] = s := rfl

@[simp]
theorem after_cons (m : Machine σ ι ο) (s : σ) (i : ι) (inputs : List ι) :
    after m s (i :: inputs) = after m (m s i).2 inputs := rfl

/-- Every answer of a run is the one to one of its inputs, in the state that the inputs before it
lead to. -/
theorem mem_answers_iff {m : Machine σ ι ο} {s : σ} {inputs : List ι} {o : ο} :
    o ∈ answers m s inputs ↔
      ∃ before i rest, inputs = before ++ i :: rest ∧ (m (after m s before) i).1 = o := by
  induction inputs generalizing s with
  | nil => simp
  | cons i inputs ih =>
    rw [answers_cons, List.mem_cons, ih]
    constructor
    · -- the answer to the first input, or a later one
      rintro (rfl | ⟨before, j, rest, rfl, hanswer⟩)
      · exact ⟨[], i, inputs, rfl, rfl⟩
      · exact ⟨i :: before, j, rest, rfl, hanswer⟩
    · rintro ⟨_ | ⟨first, before⟩, j, rest, hsplit, hanswer⟩
      · obtain ⟨rfl, rfl⟩ := List.cons.inj hsplit
        exact .inl hanswer.symm
      · obtain ⟨rfl, rfl⟩ := List.cons.inj hsplit
        exact .inr ⟨before, j, rest, rfl, hanswer⟩

/-- From related states the two machines give the same answer and reach related states. -/
structure Refines (concrete : Machine σ ι ο) (abstract : Machine τ ι ο) (R : σ → τ → Prop) :
    Prop where
  answer : ∀ {s t}, R s t → ∀ i, (concrete s i).1 = (abstract t i).1
  state : ∀ {s t}, R s t → ∀ i, R (concrete s i).2 (abstract t i).2

namespace Refines

variable {concrete : Machine σ ι ο} {abstract : Machine τ ι ο} {R : σ → τ → Prop}

/-- One fact about each input gives both halves. -/
theorem of_related (h : ∀ {s t}, R s t → ∀ i, (concrete s i).1 = (abstract t i).1 ∧
    R (concrete s i).2 (abstract t i).2) : Refines concrete abstract R where
  answer hR i := (h hR i).1
  state hR i := (h hR i).2

/-- No sequence of inputs tells the two machines apart. -/
theorem answers_eq (h : Refines concrete abstract R) {s : σ} {t : τ} (hR : R s t)
    (inputs : List ι) : answers concrete s inputs = answers abstract t inputs := by
  induction inputs generalizing s t with
  | nil => rfl
  | cons i inputs ih => rw [answers_cons, answers_cons, h.answer hR i, ih (h.state hR i)]

end Refines

end Machines
