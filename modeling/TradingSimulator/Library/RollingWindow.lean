import Mathlib.Algebra.Order.Group.Defs
import Mathlib.Data.List.Sort
import Mathlib.Tactic.Abel

/-!
# Rolling windows

The times of a log that are inside a window that ends now, and a bucket that forgets a time when it
has left the window. The bucket is only looked at from time to time, and what has left it in between
is dropped from its front; `Tracks` says that it then holds what a log that forgets nothing has
inside the window.

`Within` bounds the number of times in every window, wherever it starts. A log stays within its
bound when a time is added while the window that ends there has room (`Within.concat`).
-/

namespace RollingWindow

section Evict

variable {T : Type*} [AddCommGroup T] [LinearOrder T]

/-- The times that are inside the window that ends at `now`. -/
def live (window now : T) (log : List T) : List T := log.filter fun t => now - window < t

/-- The bucket without the times at its front that have left the window. -/
def evict (window now : T) (bucket : List T) : List T := bucket.dropWhile fun t => t ≤ now - window

/-- From a sorted list, dropping at the front drops everything up to the cutoff. -/
theorem evict_eq_live {window now : T} {bucket : List T} (h : bucket.Pairwise (· ≤ ·)) :
    evict window now bucket = live window now bucket := by
  induction bucket with
  | nil => rfl
  | cons t bucket ih =>
    obtain ⟨hle, htail⟩ := List.pairwise_cons.1 h
    by_cases ht : t ≤ now - window
    · rw [evict, List.dropWhile_cons_of_pos (by simpa using ht), live,
        List.filter_cons_of_neg (by simpa using ht)]
      exact ih htail
    · -- the first entry is kept, and the rest is no older
      rw [evict, List.dropWhile_cons_of_neg (by simpa using ht), live, eq_comm,
        List.filter_eq_self]
      intro s hs
      obtain rfl | hs := List.mem_cons.1 hs
      · exact decide_eq_true (not_le.1 ht)
      · exact decide_eq_true ((not_le.1 ht).trans_le (hle s hs))

end Evict

variable {T : Type*} [AddCommGroup T] [LinearOrder T] [IsOrderedAddMonoid T]

/-! ### The bucket follows the log -/

/-- At the time `last`, the bucket holds the times of the log behind a cutoff that is not inside the
window. -/
structure Tracks (window last : T) (log bucket : List T) : Prop where
  sorted : log.Pairwise (· ≤ ·)
  le_last : ∀ t ∈ log, t ≤ last
  bucket_eq : ∃ cutoff, cutoff ≤ last - window ∧ bucket = log.filter fun t => cutoff < t

variable {window last now : T} {log bucket : List T}

omit [IsOrderedAddMonoid T] in
theorem tracks_nil (window last : T) : Tracks window last [] [] :=
  ⟨List.Pairwise.nil, by simp, last - window, le_rfl, rfl⟩

/-- A bucket that nobody looks at follows the log as time passes. -/
theorem Tracks.mono (h : Tracks window last log bucket) (hle : last ≤ now) :
    Tracks window now log bucket := by
  obtain ⟨cutoff, hcutoff, rfl⟩ := h.bucket_eq
  exact ⟨h.sorted, fun t ht => (h.le_last t ht).trans hle, cutoff,
    hcutoff.trans (sub_le_sub_right hle window), rfl⟩

/-- What is left in the bucket is what the log has inside the window. -/
theorem Tracks.evict_eq (h : Tracks window last log bucket) (hle : last ≤ now) :
    evict window now bucket = live window now log := by
  obtain ⟨cutoff, hcutoff, rfl⟩ := h.bucket_eq
  rw [evict_eq_live (h.sorted.sublist List.filter_sublist), live, live, List.filter_filter]
  apply List.filter_congr
  intro t _
  -- the cutoff is not inside the window of `now` either
  have hold : now - window < t → cutoff < t :=
    fun ht => (hcutoff.trans (sub_le_sub_right hle window)).trans_lt ht
  simpa using hold

/-- An evicted bucket follows the log. -/
theorem Tracks.evict (h : Tracks window last log bucket) (hle : last ≤ now) :
    Tracks window now log (RollingWindow.evict window now bucket) :=
  ⟨h.sorted, fun t ht => (h.le_last t ht).trans hle, now - window, le_rfl, h.evict_eq hle⟩

/-- The time that is added to both is inside the window. -/
theorem Tracks.concat (hwindow : 0 < window) (h : Tracks window last log bucket)
    (hle : last ≤ now) :
    Tracks window now (log ++ [now]) (RollingWindow.evict window now bucket ++ [now]) := by
  refine ⟨?_, ?_, now - window, le_rfl, ?_⟩
  · rw [List.pairwise_append]
    refine ⟨h.sorted, List.pairwise_singleton _ _, fun t ht s hs => ?_⟩
    rw [List.mem_singleton.1 hs]
    exact (h.le_last t ht).trans hle
  · rw [List.forall_mem_append]
    exact ⟨fun t ht => (h.le_last t ht).trans hle, List.forall_mem_singleton.2 le_rfl⟩
  · rw [List.filter_append, h.evict_eq hle,
      List.filter_cons_of_pos (by simpa using hwindow)]
    rfl

/-! ### The bound on every window -/

/-- No window of this length has more than `max` times of the log, wherever it starts. -/
def Within (window : T) (max : ℕ) (log : List T) : Prop :=
  ∀ a, (log.filter fun t => a < t ∧ t ≤ a + window).length ≤ max

omit [IsOrderedAddMonoid T] in
theorem within_nil (window : T) (max : ℕ) : Within window max [] := fun _ => Nat.zero_le max

omit [IsOrderedAddMonoid T] in
/-- The window that ends at `now` is the one that starts `window` before it. -/
theorem live_eq_filter (hle : ∀ t ∈ log, t ≤ now) :
    live window now log = log.filter fun t => now - window < t ∧ t ≤ now := by
  apply List.filter_congr
  intro t ht
  simp [hle t ht]

omit [IsOrderedAddMonoid T] in
/-- What is inside the window at a time is within the bound. -/
theorem Within.length_live_le {max : ℕ} (h : Within window max log) (hle : ∀ t ∈ log, t ≤ now) :
    (live window now log).length ≤ max := by
  have hwindow := h (now - window)
  rw [sub_add_cancel] at hwindow
  rw [live_eq_filter hle]
  exact hwindow

/-- A time may be added when the window that ends there has room: a window that contains it contains
nothing else than what is inside that one. -/
theorem Within.concat {max : ℕ} (h : Within window max log)
    (hroom : (live window now log).length < max) : Within window max (log ++ [now]) := by
  intro a
  rw [List.filter_append, List.length_append]
  by_cases hin : a < now ∧ now ≤ a + window
  · -- a window with `now` in it starts before `now` and not more than `window` before it
    have hsub : (log.filter fun t => a < t ∧ t ≤ a + window).length ≤
        (live window now log).length := by
      apply List.Sublist.length_le
      apply List.monotone_filter_right
      intro t ht
      have ht : a < t ∧ t ≤ a + window := of_decide_eq_true ht
      exact decide_eq_true ((sub_le_iff_le_add.2 hin.2).trans_lt ht.1)
    have hnew : ([now].filter fun t => a < t ∧ t ≤ a + window).length ≤ 1 :=
      List.length_filter_le _ _
    omega
  · -- a window without `now` has gained nothing
    rw [List.filter_cons_of_neg (by simpa using hin)]
    exact h a

end RollingWindow
