import Mathlib.Order.Basic

/-!
# Loops

A loop that runs until its body gives an answer, with a bound on the number of turns. A larger bound
never changes an answer (`loop_mono`); an invariant and a variant are what is needed to show that
there is one (`loop_terminates`) and what it says (`loop_spec`).
-/

namespace Loops

variable {σ β : Type*} {body : σ → Option β × σ}

/-- At most `fuel` turns of the loop, `none` where none of them gives an answer. -/
def loop (body : σ → Option β × σ) : ℕ → σ → Option (β × σ)
  | 0, _ => none
  | fuel + 1, s =>
    match body s with
    | (some answer, s') => some (answer, s')
    | (none, s') => loop body fuel s'

theorem loop_of_answer {s s' : σ} {answer : β} (h : body s = (some answer, s')) (fuel : ℕ) :
    loop body (fuel + 1) s = some (answer, s') := by
  rw [loop, h]

theorem loop_of_again {s s' : σ} (h : body s = (none, s')) (fuel : ℕ) :
    loop body (fuel + 1) s = loop body fuel s' := by
  rw [loop, h]

/-- An answer stays the same when more turns are allowed. -/
theorem loop_mono {fuel more : ℕ} (hle : fuel ≤ more) {s : σ} {r : β × σ}
    (h : loop body fuel s = some r) : loop body more s = some r := by
  induction fuel generalizing more s with
  | zero => exact absurd h (by simp [loop])
  | succ fuel ih =>
    -- the larger bound also allows the first turn
    obtain ⟨more, rfl⟩ := Nat.exists_eq_add_of_le' (Nat.one_le_of_lt hle)
    obtain ⟨answer, s', hbody⟩ : ∃ answer s', body s = (answer, s') := ⟨_, _, rfl⟩
    cases answer with
    | some answer =>
      rw [loop_of_answer hbody] at h ⊢
      exact h
    | none =>
      rw [loop_of_again hbody] at h ⊢
      exact ih (Nat.le_of_succ_le_succ hle) h

/-- What the body says of an answer from a state with the invariant holds of the answer of the
loop. -/
theorem loop_spec {J : σ → Prop} {Q : β → σ → Prop}
    (hagain : ∀ s s', J s → body s = (none, s') → J s')
    (hanswer : ∀ s answer s', J s → body s = (some answer, s') → Q answer s')
    {fuel : ℕ} {s s' : σ} {answer : β} (hs : J s) (h : loop body fuel s = some (answer, s')) :
    Q answer s' := by
  induction fuel generalizing s with
  | zero => exact absurd h (by simp [loop])
  | succ fuel ih =>
    obtain ⟨turn, next, hbody⟩ : ∃ turn next, body s = (turn, next) := ⟨_, _, rfl⟩
    cases turn with
    | some reply =>
      rw [loop_of_answer hbody, Option.some_inj, Prod.mk.injEq] at h
      obtain ⟨rfl, rfl⟩ := h
      exact hanswer s reply next hs hbody
    | none =>
      rw [loop_of_again hbody] at h
      exact ih (hagain s next hs hbody) h

/-- A loop whose every further turn decreases the variant gives an answer. -/
theorem loop_terminates {J : σ → Prop} (variant : σ → ℕ)
    (hagain : ∀ s s', J s → body s = (none, s') → J s' ∧ variant s' < variant s)
    {fuel : ℕ} {s : σ} (hs : J s) (hfuel : variant s < fuel) :
    ∃ r, loop body fuel s = some r := by
  induction fuel generalizing s with
  | zero => exact absurd hfuel (Nat.not_lt_zero _)
  | succ fuel ih =>
    obtain ⟨turn, next, hbody⟩ : ∃ turn next, body s = (turn, next) := ⟨_, _, rfl⟩
    cases turn with
    | some reply => exact ⟨_, loop_of_answer hbody fuel⟩
    | none =>
      -- a turn less is left, and the variant has decreased
      obtain ⟨hnext, hvariant⟩ := hagain s next hs hbody
      rw [loop_of_again hbody]
      exact ih hnext (by omega)

end Loops
