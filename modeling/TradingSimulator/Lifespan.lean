import Mathlib.Algebra.Order.Ring.Nat
import TradingSimulator.Infra.RedisClient

/-!
# The lifespan of the process

`lifespan` and `_supervise` of `main.py`: the startup, the background engines with their restarts
and the shutdown, under any interleaving with the requests that call `get_redis`. A step is what
runs between two awaits. What the database wait, the engines and the closes end with is part of the
step.

While an engine runs, or waits for its restart, the database has answered and everybody is handed
the Redis client that has answered at startup (`ready_of_alive`), however the engines crash and
whenever the shutdown comes.
-/

namespace TradingSimulator

/-- `environment`. -/
inductive Environment where
  | development
  | test
  | staging
  | production
  deriving DecidableEq

/-- The settings that the lifespan reads. -/
structure LifespanSettings where
  environment : Environment := .development
  useFakeRedis : Bool := false
  redisUrl : Option String := some "redis://localhost:6379/0"
  /-- The database URL starts with `sqlite`. -/
  sqlite : Bool := true

/-- The settings of the Redis module. -/
def LifespanSettings.redis (settings : LifespanSettings) : RedisSettings where
  useFakeRedis := settings.useFakeRedis
  redisUrl := settings.redisUrl
  isProduction := decide (settings.environment = .production)

/-- The background engines. -/
inductive EngineName where
  | marketFeed
  | candle
  | signal
  | marketStream
  | equitySnapshot
  deriving DecidableEq

/-- The tasks that the startup creates. -/
def engineNames : List EngineName := [.marketFeed, .candle, .signal, .marketStream, .equitySnapshot]

theorem mem_engineNames (name : EngineName) : name ∈ engineNames := by
  rcases name <;> simp [engineNames]

/-- Where `_supervise` stands, with the crashes so far and its `backoff` in seconds. -/
inductive EngineTask where
  | notCreated
  | running (crashes backoff : ℕ)
  | sleeping (crashes backoff : ℕ)
  | completed
  | cancelled
  deriving DecidableEq

/-- The engine runs, or waits for its restart. -/
def EngineTask.alive : EngineTask → Bool
  | .running .. | .sleeping .. => true
  | _ => false

/-- What an engine awaits ends. -/
inductive EngineOutcome where
  | completes
  | crashes
  | wakes
  | cancels
  deriving DecidableEq

/-- `_supervise` from one await to the next. -/
def EngineTask.supervise : EngineTask → EngineOutcome → EngineTask
  | .running .., .completes => .completed
  | .running crashes backoff, .crashes => .sleeping (crashes + 1) backoff
  | .sleeping crashes backoff, .wakes => .running crashes (min (backoff * 2) 30)
  | .running .., .cancels | .sleeping .., .cancels => .cancelled
  | task, _ => task

/-- Where `lifespan` stands. -/
inductive LifespanPhase where
  | waitingForDatabase
  | ensuringSchema
  | startingRedis
  | serving
  /-- `gather` waits for the tasks. -/
  | cancelling
  | closingRedis
  | disposing
  | stopped
  /-- The startup has raised. -/
  | failed
  deriving DecidableEq

/-- The process. -/
structure Process where
  phase : LifespanPhase
  redis : RedisModule
  engines : EngineName → EngineTask

/-- What runs next. -/
inductive LifespanEvent where
  | databaseWaited (answers : Bool) (faults : Faults)
  | schemaEnsured (raises : Bool) (faults : Faults)
  /-- A request calls `get_redis`. -/
  | get (faults : Faults)
  | pinged (answer : Ping) (faults : Faults)
  | closeAwaited (raises : Bool) (faults : Faults)
  | engine (name : EngineName) (outcome : EngineOutcome)
  | shutdown
  /-- `gather` has returned. -/
  | gathered
  | disposed

namespace Process

variable (settings : LifespanSettings)

/-- The start of `lifespan`. In a test environment nothing is probed and no engine started. -/
def start : Process where
  phase := if settings.environment = .test then .serving else .waitingForDatabase
  redis := .start
  engines := fun _ => .notCreated

/-- `lifespan` when `init_redis` ends. -/
def afterInit (p : Process) : Process :=
  match p.redis.lifecycle with
  | .ready _ => { p with phase := .serving, engines := fun _ => .running 0 1 }
  | .refused | .raised => { p with phase := .failed }
  | _ => p

/-- `lifespan` calls `init_redis`. -/
def initRedis (p : Process) (faults : Faults) : Process :=
  { p with
    phase := .startingRedis
    redis := p.redis.step settings.redis (.initRedis faults) }.afterInit

/-- `lifespan` when `close_redis` ends. -/
def afterClose (p : Process) : Process :=
  match p.redis.lifecycle with
  | .idle => { p with phase := .disposing }
  | _ => p

/-- One event. An event that nobody waits for changes nothing. -/
def step (p : Process) : LifespanEvent → Process
  | .databaseWaited answers faults =>
    if p.phase = .waitingForDatabase then
      if answers = false then { p with phase := .failed }
      else if settings.environment = .development ∧ settings.sqlite = true then
        { p with phase := .ensuringSchema }
      else p.initRedis settings faults
    else p
  | .schemaEnsured raises faults =>
    if p.phase = .ensuringSchema then
      if raises then { p with phase := .failed } else p.initRedis settings faults
    else p
  | .get faults => { p with redis := p.redis.step settings.redis (.get faults) }
  | .pinged answer faults =>
    if p.phase = .startingRedis then
      { p with redis := p.redis.step settings.redis (.pinged answer faults) }.afterInit
    else p
  | .closeAwaited raises faults =>
    if p.phase = .startingRedis then
      { p with redis := p.redis.step settings.redis (.awaited raises faults) }.afterInit
    else if p.phase = .closingRedis then
      { p with redis := p.redis.step settings.redis (.awaited raises faults) }.afterClose
    else p
  | .engine name outcome =>
    -- only a task that was told to is cancelled
    if outcome = .cancels ∧ p.phase ≠ .cancelling then p
    else
      { p with engines := Function.update p.engines name ((p.engines name).supervise outcome) }
  | .shutdown =>
    if p.phase = .serving then
      { p with phase := if settings.environment = .test then .stopped else .cancelling }
    else p
  | .gathered =>
    if p.phase = .cancelling ∧ ∀ name ∈ engineNames, (p.engines name).alive = false then
      { p with
        phase := .closingRedis
        redis := p.redis.step settings.redis .closeRedis }.afterClose
    else p
  | .disposed => if p.phase = .disposing then { p with phase := .stopped } else p

/-- A run from the start. -/
def run (events : List LifespanEvent) : Process := events.foldl (step settings) (start settings)

end Process

/-! ### Restarts -/

namespace EngineTask

/-- The wait before the restart doubles from one second to thirty. -/
def Backoff : EngineTask → Prop
  | .running crashes backoff => backoff = min (2 ^ crashes) 30
  | .sleeping crashes backoff => 0 < crashes ∧ backoff = min (2 ^ (crashes - 1)) 30
  | _ => True

/-- A crash keeps the wait, and waking up doubles it for the next one. -/
theorem Backoff.supervise {task : EngineTask} (h : task.Backoff) (outcome : EngineOutcome) :
    (task.supervise outcome).Backoff := by
  rcases task with _ | ⟨crashes, backoff⟩ | ⟨crashes, backoff⟩ | _ | _ <;> rcases outcome
  any_goals exact trivial
  any_goals exact h
  · exact ⟨crashes.succ_pos, h⟩
  · obtain ⟨hpos, hbackoff⟩ := h
    obtain ⟨n, rfl⟩ := Nat.exists_eq_add_of_lt hpos
    simp only [EngineTask.supervise, Backoff, hbackoff]
    rw [Nat.zero_add, Nat.add_sub_cancel, pow_succ]
    omega

/-- A supervised task comes to life only when it is created. -/
theorem alive_of_supervise {task : EngineTask} {outcome : EngineOutcome}
    (h : (task.supervise outcome).alive = true) : task.alive = true := by
  rcases task with _ | ⟨crashes, backoff⟩ | ⟨crashes, backoff⟩ | _ | _ <;> rcases outcome <;>
    simp_all [EngineTask.supervise, EngineTask.alive]

end EngineTask

/-! ### The engines along the phases -/

namespace Process

variable {settings : LifespanSettings} {p : Process}

/-- The tasks are up. -/
def Up (p : Process) : Prop := p.phase = .serving ∨ p.phase = .cancelling

/-- The startup is probing. -/
def Probing (p : Process) : Prop :=
  p.phase = .waitingForDatabase ∨ p.phase = .ensuringSchema ∨ p.phase = .startingRedis

/-- The engines and Redis along the phases. -/
structure Inv (settings : LifespanSettings) (p : Process) : Prop where
  redis : RedisModule.Inv settings.redis p.redis
  alive : ∀ name, (p.engines name).alive = true → p.Up ∧ settings.environment ≠ .test
  ready : p.Up → settings.environment ≠ .test → ∃ client, p.redis.lifecycle = .ready client
  backoff : ∀ name, (p.engines name).Backoff
  probing : p.Probing → settings.environment ≠ .test

theorem inv_start (settings : LifespanSettings) : Inv settings (start settings) where
  redis := RedisModule.inv_run settings.redis []
  alive name h := by simp [start, EngineTask.alive] at h
  ready hup htest := by simp [start, htest, Up] at hup
  backoff _ := trivial
  probing hprobing htest := by simp [start, htest, Probing] at hprobing

namespace Inv

/-- A phase without engines. -/
theorem withPhase (h : Inv settings p) (hdown : ∀ name, (p.engines name).alive = false)
    {phase : LifespanPhase} (hphase : phase ≠ .serving ∧ phase ≠ .cancelling)
    (hprobing : ({ p with phase } : Process).Probing → settings.environment ≠ .test) :
    Inv settings { p with phase } where
  redis := h.redis
  alive name halive := by simp [hdown name] at halive
  ready hup := by simp [Up, hphase.1, hphase.2] at hup
  backoff := h.backoff
  probing := hprobing

/-- Redis goes on while no engine is alive. -/
theorem withRedis (h : Inv settings p) (hphase : ¬ p.Up) (event : RedisEvent) :
    Inv settings { p with redis := p.redis.step settings.redis event } where
  redis := h.redis.step event
  alive := h.alive
  ready hup := absurd hup hphase
  backoff := h.backoff
  probing := h.probing

/-- Outside the phases of the engines none is alive. -/
theorem down (h : Inv settings p) (hphase : ¬ p.Up) (name : EngineName) :
    (p.engines name).alive = false := by
  by_contra halive
  exact hphase (h.alive name (by simpa using halive)).1

/-- The engines are created when Redis is ready. -/
theorem afterInit (h : Inv settings p) (hphase : p.phase = .startingRedis) :
    Inv settings p.afterInit := by
  have hdown := h.down (by simp [Up, hphase])
  unfold Process.afterInit
  split
  · next client hready =>
    exact
      { redis := h.redis
        alive := fun _ _ => ⟨.inl rfl, h.probing (by simp [Probing, hphase])⟩
        ready := fun _ _ => ⟨client, hready⟩
        backoff := fun _ => rfl
        probing := by simp [Probing] }
  · exact h.withPhase hdown (by simp) (by simp [Probing])
  · exact h.withPhase hdown (by simp) (by simp [Probing])
  · exact h

/-- The startup of Redis keeps the invariant. -/
theorem initRedis (h : Inv settings p) (hprobing : p.Probing) (hphase : ¬ p.Up) (faults : Faults) :
    Inv settings (p.initRedis settings faults) := by
  have hstarting : Inv settings { p with phase := .startingRedis } :=
    h.withPhase (h.down hphase) (by simp) fun _ => h.probing hprobing
  exact (hstarting.withRedis (by simp [Up]) (.initRedis faults)).afterInit rfl

theorem afterClose (h : Inv settings p) (hphase : ¬ p.Up) : Inv settings p.afterClose := by
  unfold Process.afterClose
  split
  · exact h.withPhase (h.down hphase) (by simp) (by simp [Probing])
  · exact h

/-- Every event keeps the invariant. -/
theorem step (h : Inv settings p) (event : LifespanEvent) :
    Inv settings (p.step settings event) := by
  rcases event with ⟨answers, faults⟩ | ⟨raises, faults⟩ | faults | ⟨answer, faults⟩ |
    ⟨raises, faults⟩ | ⟨name, outcome⟩ | _ | _ | _ <;> unfold Process.step <;> dsimp only
  · -- the wait for the database: without an answer the startup fails
    split_ifs with hphase
    · exact h.withPhase (h.down (by simp [Up, hphase])) (by simp) (by simp [Probing])
    · exact h.withPhase (h.down (by simp [Up, hphase])) (by simp)
        fun _ => h.probing (.inl hphase)
    · exact h.initRedis (.inl hphase) (by simp [Up, hphase]) faults
    · exact h
  · -- the tables of a local database are created, or the startup fails
    split_ifs with hphase
    · exact h.withPhase (h.down (by simp [Up, hphase])) (by simp) (by simp [Probing])
    · exact h.initRedis (.inr (.inl hphase)) (by simp [Up, hphase]) faults
    · exact h
  · -- a request calls `get_redis`, which leaves a client that is ready alone
    exact
      { redis := h.redis.step (.get faults)
        alive := h.alive
        ready := fun hup htest => by
          obtain ⟨client, hready⟩ := h.ready hup htest
          exact ⟨client, RedisModule.lifecycle_step_of_ready hready (by simp)⟩
        backoff := h.backoff
        probing := h.probing }
  · -- the answer to a ping of the startup
    split_ifs with hphase
    · exact (h.withRedis (by simp [Up, hphase]) _).afterInit hphase
    · exact h
  · -- a close has ended, in the startup or in the shutdown
    split_ifs with hstarting hclosing
    · exact (h.withRedis (by simp [Up, hstarting]) _).afterInit hstarting
    · exact (h.withRedis (by simp [Up, hclosing]) _).afterClose (by simp [Up, hclosing])
    · exact h
  · -- an engine: the others do not change, and none comes to life
    split_ifs
    · exact h
    · refine ⟨h.redis, fun other halive => ?_, h.ready, fun other => ?_, h.probing⟩
      · by_cases hother : other = name
        · subst hother
          simp only [Function.update_self] at halive
          exact h.alive other (EngineTask.alive_of_supervise halive)
        · exact h.alive other (by simpa [hother] using halive)
      · by_cases hother : other = name
        · subst hother
          simpa using (h.backoff other).supervise outcome
        · simpa [hother] using h.backoff other
  · -- the shutdown: in the tests there is no engine to cancel
    split_ifs with hphase htest
    · refine h.withPhase (fun name => ?_) (by simp) (by simp [Probing])
      by_contra halive
      exact (h.alive name (by simpa using halive)).2 htest
    · exact
        { redis := h.redis
          alive := fun name halive => ⟨.inr rfl, htest⟩
          ready := fun _ htest => h.ready (.inl hphase) htest
          backoff := h.backoff
          probing := by simp [Probing] }
    · exact h
  · -- every engine has ended, so nobody uses the client that is closed
    split_ifs with hgathered
    · have hclosing : Inv settings { p with phase := .closingRedis } :=
        h.withPhase (fun name => hgathered.2 name (mem_engineNames name)) (by simp)
          (by simp [Probing])
      exact (hclosing.withRedis (by simp [Up]) .closeRedis).afterClose (by simp [Up])
    · exact h
  · split_ifs with hphase
    · exact h.withPhase (h.down (by simp [Up, hphase])) (by simp) (by simp [Probing])
    · exact h

end Inv

theorem inv_run (settings : LifespanSettings) (events : List LifespanEvent) :
    Inv settings (run settings events) :=
  Runs.foldl_invariant (A := fun _ => True) (J := Inv settings)
    (fun _ event _ h => h.step event) (inv_start settings) fun _ _ => trivial

/-- After its `n`-th crash an engine waits for `2 ^ (n - 1)` seconds, and never for more than
thirty. -/
theorem backoff_of_sleeping (settings : LifespanSettings) (events : List LifespanEvent)
    {name : EngineName} {crashes backoff : ℕ}
    (h : (run settings events).engines name = .sleeping crashes backoff) :
    0 < crashes ∧ backoff = min (2 ^ (crashes - 1)) 30 := by
  have hbackoff := (inv_run settings events).backoff name
  rwa [h] at hbackoff

/-- The startup gets past the database only when it has answered. -/
theorem phase_of_step {event : LifespanEvent}
    (h : (p.step settings event).phase ≠ .waitingForDatabase ∧
      (p.step settings event).phase ≠ .failed) :
    (p.phase ≠ .waitingForDatabase ∧ p.phase ≠ .failed) ∨
      ∃ faults, event = .databaseWaited true faults := by
  by_cases hphase : p.phase = .waitingForDatabase ∨ p.phase = .failed
  swap
  · exact .inl (not_or.mp hphase)
  rcases event with ⟨_ | _, faults⟩ | ⟨raises, faults⟩ | faults | ⟨answer, faults⟩ |
    ⟨raises, faults⟩ | ⟨name, outcome⟩ | _ | _ | _
  case databaseWaited.true => exact .inr ⟨faults, rfl⟩
  -- every other event leaves these two phases as they are
  all_goals
    exfalso
    rcases hphase with hphase | hphase <;> simp only [step, hphase] at h <;>
      (try split_ifs at h) <;> simp_all

/-- Whoever is past the database has had its answer. -/
theorem databaseWaited_mem (htest : settings.environment ≠ .test) (events : List LifespanEvent)
    (h : (run settings events).phase ≠ .waitingForDatabase ∧
      (run settings events).phase ≠ .failed) :
    ∃ faults, .databaseWaited true faults ∈ events := by
  induction events using List.reverseRecOn with
  | nil => simp [run, start, htest] at h
  | append_singleton events last ih =>
    rw [run, List.foldl_append, ← run] at h
    rcases phase_of_step h with hbefore | ⟨faults, rfl⟩
    · obtain ⟨faults, hmem⟩ := ih hbefore
      exact ⟨faults, List.mem_append_left _ hmem⟩
    · exact ⟨faults, by simp⟩

/-- The URL of Redis is malformed, so the startup goes on in memory. An engine crashes twice, and
the shutdown comes during its wait. -/
def twoCrashes : List LifespanEvent :=
  [.databaseWaited true {}, .schemaEnsured false ⟨true, false⟩, .pinged .truthy {},
   .engine .candle .crashes, .engine .candle .wakes, .engine .candle .crashes, .shutdown]

end Process

end TradingSimulator
