import Mathlib.Data.List.Infix

/-!
# Readers of a published log

A publisher appends messages to a log and hands each of them to the readers that are attached,
waiting for all of them before it publishes the next one. A reader is attached from some point of
the log on until it is detached, because it leaves or because a hand-over to it fails.

`LogReader.UpToDate` is the invariant of the pattern: what a reader was given is a prefix of the log
from the point it joined at, and all of it while the reader is attached.
-/

variable {M : Type*}

/-- A reader of a log. -/
structure LogReader (M : Type*) where
  /-- The length of the log when the reader was attached. -/
  joined : ℕ
  taken : List M
  /-- What was published and has not been handed over yet. -/
  onItsWay : List M
  attached : Bool

namespace LogReader

/-- The reader joins after the messages of the log. -/
def join (log : List M) : LogReader M :=
  { joined := log.length, taken := [], onItsWay := [], attached := true }

/-- What the reader has been given and will be given is what was published since it joined, as long
as it is attached, and a prefix of it in any case. -/
structure UpToDate (log : List M) (reader : LogReader M) : Prop where
  joined_le : reader.joined ≤ log.length
  isPrefix : reader.taken ++ reader.onItsWay <+: log.drop reader.joined
  eq_of_attached : reader.attached = true →
    reader.taken ++ reader.onItsWay = log.drop reader.joined

/-- What can happen to a log and a reader of it. -/
inductive Step : List M → LogReader M → List M → LogReader M → Prop where
  | stay (log : List M) (reader : LogReader M) : Step log reader log reader
  /-- The publisher goes on when nothing is on its way. -/
  | publish (log : List M) (reader : LogReader M) (message : M) (hidle : reader.onItsWay = []) :
    Step log reader (log ++ [message])
      { reader with onItsWay := if reader.attached then [message] else [] }
  | take (log : List M) (reader : LogReader M) :
    Step log reader log
      { reader with taken := reader.taken ++ reader.onItsWay, onItsWay := [] }
  | fail (log : List M) (reader : LogReader M) :
    Step log reader log { reader with onItsWay := [], attached := false }
  | detach (log : List M) (reader : LogReader M) :
    Step log reader log { reader with attached := false }

theorem Step.congr {log log' log'' : List M} {reader reader' reader'' : LogReader M}
    (h : Step log reader log' reader') (hlog : log'' = log') (hreader : reader'' = reader') :
    Step log reader log'' reader'' := by
  subst hlog hreader
  exact h

theorem upToDate_join (log : List M) : UpToDate log (join log) where
  joined_le := le_rfl
  isPrefix := by simp [join]
  eq_of_attached := by simp [join]

/-- Every step keeps the reader up to date. -/
theorem Step.upToDate {log log' : List M} {reader reader' : LogReader M}
    (h : Step log reader log' reader') (hreader : UpToDate log reader) :
    UpToDate log' reader' := by
  cases h with
  | stay => exact hreader
  | publish message hidle =>
    -- the reader has joined before, so the new message is behind its start
    have hdrop : (log ++ [message]).drop reader.joined = log.drop reader.joined ++ [message] :=
      List.drop_append_of_le_length hreader.joined_le
    have htaken := hreader.isPrefix
    rw [hidle, List.append_nil] at htaken
    refine ⟨by simpa using Nat.le_succ_of_le hreader.joined_le, ?_, fun hattached => ?_⟩
    · dsimp only
      rw [hdrop]
      -- an attached reader is sent the message, a detached one stays behind
      split_ifs with hattached
      · have heq := hreader.eq_of_attached hattached
        rw [hidle, List.append_nil] at heq
        rw [heq]
      · rw [List.append_nil]
        exact htaken.trans (List.prefix_append _ _)
    · have heq := hreader.eq_of_attached hattached
      rw [hidle, List.append_nil] at heq
      dsimp only at hattached ⊢
      rw [hdrop, heq, if_pos hattached]
  | take =>
    -- what was on its way is taken
    refine ⟨hreader.joined_le, ?_, fun hattached => ?_⟩
    · simpa using hreader.isPrefix
    · simpa using hreader.eq_of_attached hattached
  | fail =>
    -- what was on its way is lost, and the reader is detached
    refine ⟨hreader.joined_le, ?_, nofun⟩
    simpa using (List.prefix_append _ _).trans hreader.isPrefix
  | detach => exact ⟨hreader.joined_le, hreader.isPrefix, nofun⟩

/-- A reader is only ever given messages of the log. -/
theorem Step.subset {log log' : List M} {reader reader' : LogReader M}
    (h : Step log reader log' reader') (hsubset : reader.taken ++ reader.onItsWay ⊆ log) :
    reader'.taken ++ reader'.onItsWay ⊆ log' := by
  rw [List.append_subset] at hsubset
  cases h with
  | stay => exact List.append_subset.mpr hsubset
  | publish message hidle =>
    refine List.append_subset.mpr ⟨List.subset_append_of_subset_left _ hsubset.1, ?_⟩
    dsimp only
    split_ifs <;> simp
  | take => simpa using hsubset
  | fail => simpa using hsubset.1
  | detach => exact List.append_subset.mpr hsubset

/-- A reader that is detached and waits for nothing stays as it is. -/
theorem Step.eq_of_detached {log log' : List M} {reader reader' : LogReader M}
    (h : Step log reader log' reader') (hattached : reader.attached = false)
    (hidle : reader.onItsWay = []) : reader' = reader := by
  obtain ⟨joined, taken, onItsWay, attached⟩ := reader
  dsimp only at hattached hidle
  subst hattached hidle
  cases h <;> simp

end LogReader
