import TradingSimulator.Library.Runs
import TradingSimulator.Quant.SignalEngine

/-!
# The cache of the signal engine

`generate` returns a cached result while it is fresh, and `cleanup_cache` drops what is not
(`app/quant/signal_engine.py`). Both look at the `seconds` of an age, which is what is left of it
after its full days: an entry that is a day and ten seconds old counts as ten seconds old
(`everyStep_fresh_iff`).
-/

namespace TradingSimulator.SignalEngine

/-! ### The cache -/

section Cache

/-- One second, in microseconds. -/
def SECOND : ℤ := 1000000

/-- One day. -/
def DAY : ℤ := 86400 * SECOND

/-- `self.cache_ttl`, in seconds. -/
def cacheTtl : ℤ := 30

/-- `timedelta.seconds`: the full seconds of what is left after the full days. -/
def seconds (age : ℤ) : ℤ := age % DAY / SECOND

variable {α : Type}

/-- The cache of the engine, and the signals that `market_state` has for other readers. -/
structure Engine (α : Type) where
  cache : String → Option (SignalResult α)
  signals : String → Option Signal

/-- What `generate` returns: a cached result, or one that has been computed for the call. -/
inductive Generated (α : Type) where
  | cached (result : SignalResult α)
  | computed (result : SignalResult α)

/-- `generate` at the time `now`, with what `_compute` returns if it is asked. -/
def generate (symbol : String) (force : Bool) (now : ℤ) (result : SignalResult α)
    (engine : Engine α) : Generated α × Engine α :=
  match (engine.cache symbol).filter fun cached =>
      !force && decide (seconds (now - cached.timestamp) < cacheTtl) with
  | some cached => (.cached cached, engine)
  | none =>
    (.computed result,
      { cache := Function.update engine.cache symbol (some result)
        -- `market_state.update_signal`
        signals := Function.update engine.signals symbol (some result.signal) })

/-- `cleanup_cache` at the time `now`. -/
def cleanupCache (now : ℤ) (engine : Engine α) : Engine α :=
  { engine with
    cache := fun symbol => (engine.cache symbol).filter fun cached =>
      seconds (now - cached.timestamp) < cacheTtl }

/-- `generate` returns an entry that it takes for fresh, or stores a new result. -/
theorem generate_cases (symbol : String) (force : Bool) (now : ℤ) (result : SignalResult α)
    (engine : Engine α) :
    (∃ cached, engine.cache symbol = some cached ∧ force = false ∧
      seconds (now - cached.timestamp) < cacheTtl ∧
      generate symbol force now result engine = (.cached cached, engine)) ∨
    ((∀ cached, engine.cache symbol = some cached → force = false →
        ¬ seconds (now - cached.timestamp) < cacheTtl) ∧
      generate symbol force now result engine = (.computed result,
        { cache := Function.update engine.cache symbol (some result)
          signals := Function.update engine.signals symbol (some result.signal) })) := by
  rw [generate]
  split
  · rename_i cached h
    obtain ⟨hcached, hfresh⟩ := Option.filter_eq_some_iff.1 h
    rw [Bool.and_eq_true, Bool.not_eq_true', decide_eq_true_iff] at hfresh
    exact Or.inl ⟨cached, hcached, hfresh.1, hfresh.2, rfl⟩
  · rename_i h
    refine Or.inr ⟨fun cached hcached hforce hfresh => ?_, rfl⟩
    rw [hcached, hforce, Option.filter_some_eq_none] at h
    exact h (by simpa using hfresh)

/-- For an age that is not negative, the seconds are below the limit when the age is, and when the
age is some full days longer. -/
theorem seconds_lt_cacheTtl_iff {age : ℤ} (h : 0 ≤ age) :
    seconds age < cacheTtl ↔
      age < cacheTtl * SECOND ∨ DAY ≤ age ∧ age % DAY < cacheTtl * SECOND := by
  simp only [seconds, cacheTtl, DAY, SECOND]
  omega

end Cache

/-! ### Runs -/

/-- A call of the engine. A computation takes `work` microseconds, and its result gets the time at
its end. -/
inductive EngineCall (α : Type) where
  | generate (symbol : String) (force : Bool) (work : ℕ) (result : SignalResult α)
  | cleanupCache

/-- The engine and the time. -/
structure EngineRun (α : Type) where
  clock : ℤ
  engine : Engine α

namespace EngineRun

variable {α : Type}

/-- The engine at the time 0, before it has computed anything. -/
def start : EngineRun α where
  clock := 0
  engine := { cache := fun _ => none, signals := fun _ => none }

/-- One call, `call.1` microseconds after the end of the one before. -/
def step (s : EngineRun α) (call : ℕ × EngineCall α) : EngineRun α :=
  let now := s.clock + call.1
  match call.2 with
  | .generate symbol force work result =>
    let result := { result with timestamp := now + work }
    match SignalEngine.generate symbol force now result s.engine with
    | (.cached _, engine) => { clock := now, engine }
    | (.computed _, engine) => { clock := now + work, engine }
  | .cleanupCache => { clock := now, engine := SignalEngine.cleanupCache now s.engine }

/-- A call respects the time to live: a result that is returned without a computation is younger,
and what a cleanup removes are the entries that are not. -/
def Fresh (s : EngineRun α) (call : ℕ × EngineCall α) : Prop :=
  let now := s.clock + call.1
  match call.2 with
  | .generate symbol force work result =>
    ∀ cached, (SignalEngine.generate symbol force now { result with timestamp := now + work }
        s.engine).1 = .cached cached → now - cached.timestamp < cacheTtl * SECOND
  | .cleanupCache =>
    ∀ symbol, (SignalEngine.cleanupCache now s.engine).cache symbol =
      (s.engine.cache symbol).filter fun cached => now - cached.timestamp < cacheTtl * SECOND

/-- An entry that is a day old or older, and by less than the time to live older than some full
days. -/
def DaysOld (now : ℤ) (cached : SignalResult α) : Prop :=
  DAY ≤ now - cached.timestamp ∧ (now - cached.timestamp) % DAY < cacheTtl * SECOND

/-- No entry that the call looks at is some full days older than a fresh one. -/
def NoneDaysOld (s : EngineRun α) (call : ℕ × EngineCall α) : Prop :=
  let now := s.clock + call.1
  match call.2 with
  | .generate symbol force _ _ =>
    force = false → ∀ cached, s.engine.cache symbol = some cached → ¬ DaysOld now cached
  | .cleanupCache =>
    ∀ symbol cached, s.engine.cache symbol = some cached → ¬ DaysOld now cached

/-- No entry is from the future. -/
def Inv (s : EngineRun α) : Prop :=
  ∀ symbol cached, s.engine.cache symbol = some cached → cached.timestamp ≤ s.clock

theorem inv_start : (start : EngineRun α).Inv := by
  intro symbol cached h
  cases h

/-- An entry is from before the next call. -/
theorem Inv.timestamp_le {s : EngineRun α} (hinv : s.Inv) (delay : ℕ) {symbol : String}
    {cached : SignalResult α} (h : s.engine.cache symbol = some cached) :
    cached.timestamp ≤ s.clock + delay :=
  (hinv symbol cached h).trans (by omega)

/-- Every call keeps the invariant. -/
theorem Inv.step {s : EngineRun α} (hinv : s.Inv) (call : ℕ × EngineCall α) :
    (s.step call).Inv := by
  obtain ⟨delay, call⟩ := call
  cases call with
  | cleanupCache =>
    -- what is left was there before
    intro symbol cached h
    exact hinv.timestamp_le delay (Option.eq_some_of_filter_eq_some h)
  | generate symbol force work result =>
    rw [EngineRun.step]
    dsimp only
    generalize hstored : ({ result with timestamp := s.clock + delay + work } : SignalResult α) =
      stored
    have htime : stored.timestamp = s.clock + delay + work := by rw [← hstored]
    obtain ⟨_, -, -, -, h⟩ | ⟨-, h⟩ :=
      generate_cases symbol force (s.clock + delay) stored s.engine
    · rw [h]
      exact fun other cached hcached => hinv.timestamp_le delay hcached
    · -- the new entry has the time of the end of the call, the others are from before it
      rw [h]
      intro other cached hcached
      change Function.update s.engine.cache symbol (some stored) other = some cached at hcached
      show cached.timestamp ≤ s.clock + delay + work
      by_cases hother : other = symbol
      · rw [hother, Function.update_self] at hcached
        obtain rfl := Option.some.inj hcached
        exact htime.le
      · rw [Function.update_of_ne hother] at hcached
        exact (hinv.timestamp_le delay hcached).trans (by omega)

/-- An age that is not negative is taken for fresh exactly when it is, except after full days. -/
theorem seconds_lt_iff_of_not_daysOld {now : ℤ} {cached : SignalResult α}
    (hle : cached.timestamp ≤ now) :
    (seconds (now - cached.timestamp) < cacheTtl ↔
      now - cached.timestamp < cacheTtl * SECOND) ↔ ¬ DaysOld now cached := by
  rw [seconds_lt_cacheTtl_iff (sub_nonneg.2 hle), DaysOld]
  simp only [cacheTtl, DAY, SECOND]
  omega

/-- A call of `generate` respects the time to live exactly when it finds no entry that is some full
days older than a fresh one. -/
theorem fresh_generate_iff {s : EngineRun α} (hinv : s.Inv) (delay : ℕ) (symbol : String)
    (force : Bool) (work : ℕ) (result : SignalResult α) :
    s.Fresh (delay, .generate symbol force work result) ↔
      s.NoneDaysOld (delay, .generate symbol force work result) := by
  rw [Fresh, NoneDaysOld]
  dsimp only
  obtain ⟨cached, hcached, hforce, hseconds, h⟩ | ⟨hstale, h⟩ := generate_cases symbol force
    (s.clock + delay) { result with timestamp := s.clock + delay + work } s.engine
  · -- the entry is returned, because its seconds are below the time to live
    have hiff := seconds_lt_iff_of_not_daysOld (hinv.timestamp_le delay hcached)
    rw [h]
    constructor
    · intro hyoung _ other hother
      obtain rfl := Option.some.inj (hcached.symm.trans hother)
      exact hiff.1 (iff_of_true hseconds (hyoung cached rfl))
    · rintro hnone _ ⟨⟩
      exact (hiff.2 (hnone hforce cached hcached)).1 hseconds
  · -- the result is computed, so no cached one is returned
    rw [h]
    constructor
    · intro _ hforce cached hcached
      have hold := hstale cached hcached hforce
      have hle := hinv.timestamp_le delay hcached
      refine (seconds_lt_iff_of_not_daysOld hle).1 (iff_of_false hold fun hyoung => hold ?_)
      exact (seconds_lt_cacheTtl_iff (sub_nonneg.2 hle)).2 (Or.inl hyoung)
    · rintro - _ ⟨⟩

/-- A cleanup drops what is not fresh exactly when no entry is some full days older than a fresh
one. -/
theorem fresh_cleanupCache_iff {s : EngineRun α} (hinv : s.Inv) (delay : ℕ) :
    s.Fresh (delay, .cleanupCache) ↔ s.NoneDaysOld (delay, .cleanupCache) := by
  rw [Fresh, NoneDaysOld]
  dsimp only
  apply forall_congr'
  intro symbol
  rw [SignalEngine.cleanupCache]
  dsimp only
  cases hentry : s.engine.cache symbol with
  | none => simp
  | some cached =>
    have hiff := seconds_lt_iff_of_not_daysOld (hinv.timestamp_le delay hentry)
    rw [Option.filter_some, Option.filter_some]
    simp only [Option.some.injEq, forall_eq', ← hiff, decide_eq_true_eq]
    by_cases hseconds : seconds (s.clock + delay - cached.timestamp) < cacheTtl <;>
      by_cases hyoung : s.clock + delay - cached.timestamp < cacheTtl * SECOND <;>
      simp [hseconds, hyoung]

/-- A call respects the time to live exactly when it looks at no entry that is some full days older
than a fresh one. -/
theorem fresh_iff {s : EngineRun α} (hinv : s.Inv) (call : ℕ × EngineCall α) :
    s.Fresh call ↔ s.NoneDaysOld call := by
  obtain ⟨delay, call⟩ := call
  cases call with
  | generate symbol force work result =>
    exact fresh_generate_iff hinv delay symbol force work result
  | cleanupCache => exact fresh_cleanupCache_iff hinv delay

/-- In every run, all cached results and cleanups respect the time to live exactly when no call
looks at an entry that is some full days older than a fresh one. -/
theorem everyStep_fresh_iff (calls : List (ℕ × EngineCall α)) :
    Runs.EveryStep step Fresh start calls ↔ Runs.EveryStep step NoneDaysOld start calls := by
  apply Runs.everyStep_congr (A := fun _ => True) (J := Inv)
  · exact fun _ call _ hinv => hinv.step call
  · exact fun _ call _ hinv => fresh_iff hinv call
  · exact inv_start
  · exact fun _ _ => trivial

end EngineRun

/-- A result of `_compute`, for which nothing could be fetched. -/
def noData : SignalResult ℤ := fallback "AAPL" 0

/-- A day and ten seconds later, the result of the first request is returned once more. -/
theorem not_everyStep_fresh_nextDay :
    ¬ Runs.EveryStep EngineRun.step EngineRun.Fresh EngineRun.start
      [(0, .generate "AAPL" false 0 noData), (86410000000, .generate "AAPL" false 0 noData)] := by
  intro h
  have hsecond := h [(0, .generate "AAPL" false 0 noData)]
    (86410000000, .generate "AAPL" false 0 noData) List.prefix_rfl
  exact absurd (hsecond noData rfl) (by decide +kernel)

end TradingSimulator.SignalEngine
