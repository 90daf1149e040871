import Mathlib.Data.List.Basic

/-!
# Transactions

A program that works on a database inside a session. Its statements change what the session sees
and leave the committed database alone; `commit` stores what the session sees, and an exception
goes past every later statement.

* `Returns` says that a program ends without an exception. Its rules take a program apart statement
  by statement (`returns_bind_iff`) and a loop pass by pass (`returns_foldlM_cons_iff`).
* `Tentative` programs commit nothing, whether they end or raise. With a handler that rolls back
  (`orRollback`) an exception of such a program leaves no trace (`orRollback_of_raises`).
-/

namespace Transactions

/-- The committed database, and the database as the statements of the session have left it. -/
structure Session (D : Type) where
  committed : D
  current : D

/-- A program in a session: a result or an exception, and the session after it. -/
def Transaction (D E R : Type) : Type := Session D → Except E R × Session D

variable {D E R A B : Type}

namespace Session

/-- A new session sees the committed database. -/
def opened (db : D) : Session D where
  committed := db
  current := db

/-- `session.rollback()`. -/
def rolledBack (s : Session D) : Session D := opened s.committed

end Session

namespace Transaction

instance : Monad (Transaction D E) where
  pure r := fun s => (.ok r, s)
  bind t next := fun s =>
    match t s with
    | (.ok r, s') => next r s'
    | (.error e, s') => (.error e, s')

theorem bind_apply (t : Transaction D E A) (next : A → Transaction D E R) (s : Session D) :
    (t >>= next) s = match t s with
      | (.ok a, s₁) => next a s₁
      | (.error e, s₁) => (.error e, s₁) := rfl

/-! ### Statements -/

/-- An exception. -/
def raise (e : E) : Transaction D E R := fun s => (.error e, s)

/-- A query. -/
def read (f : D → R) : Transaction D E R := fun s => (.ok (f s.current), s)

/-- A write that the database may refuse. -/
def attempt (f : D → Except E (R × D)) : Transaction D E R := fun s =>
  match f s.current with
  | .ok (r, db) => (.ok r, { s with current := db })
  | .error e => (.error e, s)

/-- A write. -/
def write (f : D → D) : Transaction D E Unit := fun s => (.ok (), { s with current := f s.current })

/-- A statement that raises the exception `fault`, if there is one, before it has an effect. -/
def failing (fault : Option E) (t : Transaction D E R) : Transaction D E R :=
  match fault with
  | some e => raise e
  | none => t

/-- `session.commit()`. -/
def commit : Transaction D E Unit := fun s => (.ok (), { s with committed := s.current })

/-- The program inside a handler that rolls the session back and raises the exception again. -/
def orRollback (t : Transaction D E R) : Transaction D E R := fun s =>
  match t s with
  | (.ok r, s') => (.ok r, s')
  | (.error e, s') => (.error e, s'.rolledBack)

/-! ### Programs that end without an exception -/

/-- The program ends with the result `r` and leaves the session `s'`. -/
def Returns (t : Transaction D E R) (s : Session D) (r : R) (s' : Session D) : Prop :=
  t s = (.ok r, s')

section Returns

variable {s s' : Session D} {r : R}

/-- A program that does not end raises an exception. -/
theorem exists_raises_of_not_returns {t : Transaction D E R}
    (h : ¬ ∃ r s', t.Returns s r s') : ∃ e s', t s = (.error e, s') := by
  rcases ht : t s with ⟨e | r, s'⟩
  · exact ⟨e, s', rfl⟩
  · exact absurd ⟨r, s', ht⟩ h

@[simp]
theorem returns_pure_iff {a : R} :
    (pure a : Transaction D E R).Returns s r s' ↔ a = r ∧ s = s' := by
  change ((Except.ok a : Except E R), s) = (.ok r, s') ↔ _
  rw [Prod.mk.injEq, Except.ok.injEq]

/-- The statements of a program one after the other. -/
@[simp]
theorem returns_bind_iff {t : Transaction D E A} {next : A → Transaction D E R} :
    (t >>= next).Returns s r s' ↔ ∃ a s₁, t.Returns s a s₁ ∧ (next a).Returns s₁ r s' := by
  simp only [Returns, bind_apply]
  -- an exception of the first program goes past the second one
  rcases ht : t s with ⟨e | a, s₁⟩
  · simp
  · constructor
    · intro h
      exact ⟨a, s₁, rfl, h⟩
    · rintro ⟨a', s₁', heq, h⟩
      cases heq
      exact h

@[simp]
theorem not_returns_raise {e : E} : ¬ (raise e : Transaction D E R).Returns s r s' := by
  intro h
  cases h

@[simp]
theorem returns_read_iff {f : D → R} :
    (read f : Transaction D E R).Returns s r s' ↔ f s.current = r ∧ s = s' := by
  change ((Except.ok (f s.current) : Except E R), s) = (.ok r, s') ↔ _
  rw [Prod.mk.injEq, Except.ok.injEq]

@[simp]
theorem returns_write_iff {f : D → D} {u : Unit} :
    (write f : Transaction D E Unit).Returns s u s' ↔ { s with current := f s.current } = s' := by
  simp [Returns, write]

/-- A step that may fail returns what it computes, on the tables that it leaves. -/
@[simp]
theorem returns_attempt_iff {f : D → Except E (R × D)} :
    (attempt f).Returns s r s' ↔
      ∃ db, f s.current = .ok (r, db) ∧ { s with current := db } = s' := by
  unfold Returns attempt
  cases h : f s.current with
  | error e => simp
  | ok result =>
    obtain ⟨a, db⟩ := result
    simp only [Prod.mk.injEq, Except.ok.injEq]
    constructor
    · rintro ⟨rfl, rfl⟩
      exact ⟨db, ⟨rfl, rfl⟩, rfl⟩
    · rintro ⟨db', ⟨rfl, rfl⟩, rfl⟩
      exact ⟨rfl, rfl⟩

/-- A transaction that may fail returns when it does not fail, with what it returns then. -/
@[simp]
theorem returns_failing_iff {fault : Option E} {t : Transaction D E R} :
    (failing fault t).Returns s r s' ↔ fault = none ∧ t.Returns s r s' := by
  cases fault with
  | none => simp [failing]
  | some e => simp [failing]

@[simp]
theorem returns_commit_iff {u : Unit} :
    (commit : Transaction D E Unit).Returns s u s' ↔ { s with committed := s.current } = s' := by
  simp [Returns, commit]

/-- A handler does not change what ends without an exception. -/
@[simp]
theorem returns_orRollback_iff {t : Transaction D E R} :
    t.orRollback.Returns s r s' ↔ t.Returns s r s' := by
  unfold Returns orRollback
  rcases t s with ⟨e | a, s₁⟩
  · simp
  · simp

/-- A loop with an accumulator ends exactly when its passes do, one after the other. -/
theorem returns_foldlM_cons_iff {f : B → A → Transaction D E B} {a : A} {as : List A} {b b' : B} :
    ((a :: as).foldlM f b).Returns s b' s' ↔
      ∃ b₁ s₁, (f b a).Returns s b₁ s₁ ∧ (as.foldlM f b₁).Returns s₁ b' s' := by
  rw [List.foldlM_cons, returns_bind_iff]

end Returns

/-! ### Programs that commit nothing -/

/-- The committed database is left alone, whether the program ends or raises. -/
def Tentative (t : Transaction D E R) : Prop := ∀ s, (t s).2.committed = s.committed

theorem tentative_pure (r : R) : (pure r : Transaction D E R).Tentative := fun _ => rfl

theorem tentative_raise (e : E) : (raise e : Transaction D E R).Tentative := fun _ => rfl

theorem tentative_read (f : D → R) : (read f : Transaction D E R).Tentative := fun _ => rfl

theorem tentative_write (f : D → D) : (write f : Transaction D E Unit).Tentative := fun _ => rfl

theorem tentative_attempt (f : D → Except E (R × D)) : (attempt f).Tentative := by
  intro s
  unfold attempt
  cases f s.current with
  | error e => rfl
  | ok result => rfl

/-- Two parts that commit nothing make a whole that does not. -/
theorem Tentative.bind {t : Transaction D E A} {next : A → Transaction D E R} (h : t.Tentative)
    (hnext : ∀ a, (next a).Tentative) : (t >>= next).Tentative := by
  intro s
  have hs := h s
  rw [bind_apply]
  -- the session that the second program starts in has the same committed database
  rcases ht : t s with ⟨e | a, s₁⟩
  · rw [ht] at hs
    exact hs
  · rw [ht] at hs
    exact (hnext a s₁).trans hs

/-- A fault does not make a transaction commit. -/
theorem Tentative.failing {t : Transaction D E R} (h : t.Tentative) (fault : Option E) :
    (failing fault t).Tentative := by
  cases fault with
  | none => exact h
  | some e => exact tentative_raise e

/-- A loop whose passes commit nothing. -/
theorem Tentative.foldlM {f : B → A → Transaction D E B} (h : ∀ b a, (f b a).Tentative)
    (as : List A) (b : B) : (as.foldlM f b).Tentative := by
  -- the accumulator is free in the induction
  induction as generalizing b with
  | nil => exact tentative_pure b
  | cons a as ih =>
    rw [List.foldlM_cons]
    exact (h b a).bind ih

/-- An exception before the commit leaves no trace. -/
theorem Tentative.orRollback_of_raises {t : Transaction D E A} (h : t.Tentative)
    {next : A → Transaction D E R} {s s' : Session D} {e : E} (hraises : t s = (.error e, s')) :
    (t >>= next).orRollback s = (.error e, s.rolledBack) := by
  have hbind : (t >>= next) s = (.error e, s') := by rw [bind_apply, hraises]
  -- the session goes back to what was committed before the program
  have hcommitted : s'.committed = s.committed := by
    have hs := h s
    rw [hraises] at hs
    exact hs
  unfold orRollback
  rw [hbind]
  simp only [Session.rolledBack, hcommitted]

/-- What is committed stays so, whatever comes after the commit. -/
theorem committed_orRollback {t : Transaction D E A} {next : A → Transaction D E R}
    {s s' : Session D} {a : A} (h : t.Returns s a s') (hnext : (next a).Tentative) :
    ((t >>= fun a => commit >>= fun _ => next a).orRollback s).2.committed = s'.current := by
  have hafter := hnext { s' with committed := s'.current }
  have hrun : (t >>= fun a => commit >>= fun _ => next a) s =
      next a { s' with committed := s'.current } := by
    rw [bind_apply, h]
    rfl
  unfold orRollback
  rw [hrun]
  -- the handler after an exception goes back to the commit, not behind it
  rcases hresult : next a { s' with committed := s'.current } with ⟨e | r, s''⟩
  · rw [hresult] at hafter
    exact hafter
  · rw [hresult] at hafter
    exact hafter

end Transaction

end Transactions
