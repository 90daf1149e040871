import Mathlib.Data.List.Nodup
import TradingSimulator.Library.Runs

/-!
# The Redis client of the process

`app/infra/redis_client.py`: the variables `_pool`, `_client` and `_use_fake` of the module under
any interleaving of `get_redis` with one `init_redis` or `close_redis`. A step is what runs between
two awaits. Whether a client can be built, what a ping gives and whether a close raises is part of
the step.

A client that the startup has probed is the one that everybody is handed until the close
(`getRedis_of_ready`), and no client is left open or closed twice (`count_closed_of_built`).
-/

namespace TradingSimulator

/-- The settings that the module reads. -/
structure RedisSettings where
  useFakeRedis : Bool := false
  redisUrl : Option String := some "redis://localhost:6379/0"
  isProduction : Bool := false

/-- `use_fake_redis`, or a `redis_url` that is falsy. -/
def RedisSettings.ChoosesFake (settings : RedisSettings) : Prop :=
  settings.useFakeRedis = true ∨ settings.redisUrl = none ∨ settings.redisUrl = some ""

instance (settings : RedisSettings) : Decidable settings.ChoosesFake :=
  inferInstanceAs (Decidable (_ ∨ _ ∨ _))

/-- A client over a TCP connection pool, or the in-memory one. -/
inductive ClientKind where
  | real
  | fake
  deriving DecidableEq

/-- A client, with the number of those that were built before it. -/
structure RedisClient where
  id : ℕ
  kind : ClientKind
  deriving DecidableEq

/-- Where `init_redis` and `close_redis` stand, which never run at the same time. -/
inductive Lifecycle where
  /-- Before `init_redis`, or after `close_redis`. -/
  | idle
  /-- The ping of the client that the settings choose in memory. -/
  | pingingChosen (client : RedisClient)
  | pingingReal (client : RedisClient)
  /-- `_reset_client_only` closes the client, or the pool. -/
  | resettingClient
  | resettingPool
  /-- The ping of the client that stands in for the real one. -/
  | pingingFallback (client : RedisClient)
  /-- `True`, after this client has answered. -/
  | ready (client : RedisClient)
  /-- `False`. -/
  | refused
  | raised
  /-- `close_redis` closes the client, or the pool. -/
  | closingClient
  | closingPool
  deriving DecidableEq

/-- The client whose answer `init_redis` awaits or has had. -/
def Lifecycle.probed : Lifecycle → Option RedisClient
  | .pingingChosen client | .pingingReal client | .pingingFallback client | .ready client =>
    some client
  | _ => none

/-- The client of the module is being closed. -/
def Lifecycle.closes : Lifecycle → Bool
  | .resettingClient | .resettingPool | .closingClient | .closingPool => true
  | _ => false

/-- The client of the module is about to be replaced. -/
def Lifecycle.resets : Lifecycle → Bool
  | .resettingClient | .resettingPool => true
  | _ => false

/-- The module, its lifecycle, the clients built so far and those whose `aclose` was called. A pool
has the number of its client. -/
structure RedisModule where
  pool : Option ℕ
  client : Option RedisClient
  useFake : Bool
  lifecycle : Lifecycle
  built : List RedisClient
  closed : List RedisClient
  deriving DecidableEq

/-- The answer to a ping. -/
inductive Ping where
  | truthy
  | falsy
  | raises
  deriving DecidableEq

/-- Which of the two builds raises: `ConnectionPool.from_url`, and `_build_fake_client`. -/
structure Faults where
  real : Bool := false
  fake : Bool := false
  deriving DecidableEq

/-- The build of such a client raises. -/
def Faults.raises (faults : Faults) : ClientKind → Bool
  | .real => faults.real
  | .fake => faults.fake

/-- What runs next. A step that has to build a client meets the `faults` of its moment. -/
inductive RedisEvent where
  | get (faults : Faults)
  | initRedis (faults : Faults)
  | pinged (answer : Ping) (faults : Faults)
  /-- The `aclose` that the coroutine awaits has ended. -/
  | awaited (raises : Bool) (faults : Faults)
  | closeRedis

namespace RedisModule

/-- The module after its import. -/
def start : RedisModule where
  pool := none
  client := none
  useFake := false
  lifecycle := .idle
  built := []
  closed := []

/-- A new client becomes the one of the module. -/
def build (s : RedisModule) (kind : ClientKind) : RedisModule :=
  let client : RedisClient := ⟨s.built.length, kind⟩
  { s with
    pool := if kind = .real then some client.id else s.pool
    client := some client
    built := s.built ++ [client] }

variable (settings : RedisSettings)

/-- `get_redis`, and `none` when it raises. -/
def getRedis (s : RedisModule) (faults : Faults) : Option RedisClient × RedisModule :=
  if s.client.isSome then (s.client, s)
  else
    let kind : ClientKind := if s.useFake = true ∨ settings.ChoosesFake then .fake else .real
    -- the exception leaves the module as it is
    if faults.raises kind = true then (none, s)
    else
      let s := s.build kind
      (s.client, s)

/-- The `finally` of `_reset_client_only`, and `init_redis` up to the second ping. -/
def degrade (s : RedisModule) (faults : Faults) : RedisModule :=
  match ({ s with client := none, pool := none, useFake := true } : RedisModule).getRedis settings
    faults with
  | (none, s) => { s with lifecycle := .raised }
  | (some client, s) => { s with lifecycle := .pingingFallback client }

/-- The handler of `init_redis`, up to the first `aclose`. -/
def initFailed (s : RedisModule) (faults : Faults) : RedisModule :=
  if settings.isProduction = true then { s with lifecycle := .refused }
  else
    match s.client with
    | some client => { s with lifecycle := .resettingClient, closed := s.closed ++ [client] }
    | none =>
      if s.pool.isSome then { s with lifecycle := .resettingPool } else s.degrade settings faults

/-- `init_redis` up to its first await. -/
def initRedis (s : RedisModule) (faults : Faults) : RedisModule :=
  if settings.ChoosesFake then
    match ({ s with useFake := true } : RedisModule).getRedis settings faults with
    | (none, s) => { s with lifecycle := .raised }
    | (some client, s) => { s with lifecycle := .pingingChosen client }
  else
    match s.getRedis settings faults with
    | (none, s) => s.initFailed settings faults
    | (some client, s) => { s with lifecycle := .pingingReal client }

/-- The `finally` of `close_redis`. -/
def closeFinally (s : RedisModule) : RedisModule :=
  { s with client := none, pool := none, useFake := false, lifecycle := .idle }

/-- `close_redis` up to its first await. -/
def closeRedis (s : RedisModule) : RedisModule :=
  match s.client with
  | some client => { s with lifecycle := .closingClient, closed := s.closed ++ [client] }
  | none => if s.pool.isSome then { s with lifecycle := .closingPool } else s.closeFinally

/-- One event. An event that nobody waits for changes nothing. -/
def step (s : RedisModule) : RedisEvent → RedisModule
  | .get faults => (s.getRedis settings faults).2
  | .initRedis faults =>
    match s.lifecycle with
    | .idle => s.initRedis settings faults
    | _ => s
  | .pinged answer faults =>
    match s.lifecycle with
    | .pingingChosen client | .pingingFallback client =>
      -- only an exception matters
      if answer = .raises then { s with lifecycle := .raised }
      else { s with lifecycle := .ready client }
    | .pingingReal client =>
      if answer = .truthy then { s with lifecycle := .ready client }
      else s.initFailed settings faults
    | _ => s
  | .awaited raises faults =>
    match s.lifecycle with
    | .resettingClient =>
      if raises = false ∧ s.pool.isSome then { s with lifecycle := .resettingPool }
      else s.degrade settings faults
    | .resettingPool => s.degrade settings faults
    | .closingClient =>
      if raises = false ∧ s.pool.isSome then { s with lifecycle := .closingPool }
      else s.closeFinally
    | .closingPool => s.closeFinally
    | _ => s
  | .closeRedis =>
    match s.lifecycle with
    | .idle | .ready _ | .refused | .raised => s.closeRedis
    | _ => s

/-- A run from the import. -/
def run (events : List RedisEvent) : RedisModule := events.foldl (step settings) start

/-! ### The clients -/

/-- The clients of the module, whatever the coroutines do. -/
structure Clients (s : RedisModule) : Prop where
  ids : s.built.map RedisClient.id = List.range s.built.length
  /-- A client in memory is chosen, or stands in for a real one outside production. -/
  fake : ∀ client ∈ s.built, client.kind = .fake →
    settings.ChoosesFake ∨ settings.isProduction = false
  real : ∀ client ∈ s.built, client.kind = .real → ¬ settings.ChoosesFake
  useFake : s.useFake = true → settings.ChoosesFake ∨ settings.isProduction = false
  current : ∀ client, s.client = some client → client ∈ s.built
  pool : s.client = none → s.pool = none
  closed : s.closed ⊆ s.built
  nodup : s.closed.Nodup
  left : ∀ client ∈ s.built, client ∈ s.closed ∨ s.client = some client

/-- The clients and the coroutines. -/
structure Inv (s : RedisModule) : Prop extends Clients settings s where
  /-- The client of the module is open until a coroutine starts to close it. -/
  openUntil : ∀ client, s.client = some client → (client ∈ s.closed ↔ s.lifecycle.closes = true)
  closing : s.lifecycle.closes = true → s.client.isSome
  /-- No real client is replaced in production. -/
  resets : s.lifecycle.resets = true → settings.isProduction = false
  /-- Everybody is handed the client that is probed. -/
  probed : ∀ client, s.lifecycle.probed = some client → s.client = some client

variable {settings} {s : RedisModule}

/-- Nothing has been built yet. -/
theorem clients_start : Clients settings start where
  ids := rfl
  fake := by simp [start]
  real := by simp [start]
  useFake := by simp [start]
  current := by simp [start]
  pool _ := rfl
  closed := by simp [start]
  nodup := by simp [start]
  left := by simp [start]

namespace Clients

/-- A client that was not built before. -/
theorem not_mem_built (h : Clients settings s) (kind : ClientKind) :
    (⟨s.built.length, kind⟩ : RedisClient) ∉ s.built := by
  intro hmem
  have hid := List.mem_map_of_mem (f := RedisClient.id) hmem
  rw [h.ids] at hid
  simp at hid

/-- A client is built while there is none. -/
theorem build (h : Clients settings s) {kind : ClientKind} (hnone : s.client = none)
    (hfake : kind = .fake → settings.ChoosesFake ∨ settings.isProduction = false)
    (hreal : kind = .real → ¬ settings.ChoosesFake) : Clients settings (s.build kind) where
  ids := by simp [RedisModule.build, h.ids, List.range_succ]
  fake client hmem hkind := by
    rcases List.mem_append.mp hmem with hmem | hmem
    · exact h.fake client hmem hkind
    · obtain rfl := List.mem_singleton.mp hmem
      exact hfake hkind
  real client hmem hkind := by
    rcases List.mem_append.mp hmem with hmem | hmem
    · exact h.real client hmem hkind
    · obtain rfl := List.mem_singleton.mp hmem
      exact hreal hkind
  useFake := h.useFake
  current client hclient := by
    obtain rfl := Option.some.inj hclient
    exact List.mem_append_right _ List.mem_cons_self
  pool := by simp [RedisModule.build]
  closed := fun client hmem => List.mem_append_left _ (h.closed hmem)
  nodup := h.nodup
  left client hmem := by
    rcases List.mem_append.mp hmem with hmem | hmem
    · rcases h.left client hmem with hclosed | hcurrent
      · exact .inl hclosed
      · rw [hnone] at hcurrent
        exact absurd hcurrent (by simp)
    · exact .inr (by rw [List.mem_singleton.mp hmem]; rfl)

/-- The clients do not depend on the coroutines. -/
theorem withLifecycle (h : Clients settings s) (lifecycle : Lifecycle) :
    Clients settings { s with lifecycle } :=
  ⟨h.ids, h.fake, h.real, h.useFake, h.current, h.pool, h.closed, h.nodup, h.left⟩

/-- The flag is set where the settings choose the client in memory, or outside production. -/
theorem withUseFake (h : Clients settings s)
    (huse : settings.ChoosesFake ∨ settings.isProduction = false) :
    Clients settings { s with useFake := true } :=
  ⟨h.ids, h.fake, h.real, fun _ => huse, h.current, h.pool, h.closed, h.nodup, h.left⟩

/-- The module lets go of a client that was closed. -/
theorem dropped (h : Clients settings s)
    (hclosed : ∀ client, s.client = some client → client ∈ s.closed) :
    Clients settings { s with client := none, pool := none } where
  ids := h.ids
  fake := h.fake
  real := h.real
  useFake := h.useFake
  current := by simp
  pool _ := rfl
  closed := h.closed
  nodup := h.nodup
  left client hmem := .inl ((h.left client hmem).elim id (hclosed client))

/-- `aclose` of the client of the module is called. -/
theorem closeCurrent (h : Clients settings s) {client : RedisClient}
    (hclient : s.client = some client) (hopen : client ∉ s.closed) :
    Clients settings { s with closed := s.closed ++ [client] } where
  ids := h.ids
  fake := h.fake
  real := h.real
  useFake := h.useFake
  current := h.current
  pool := h.pool
  closed := by
    refine List.append_subset.mpr ⟨h.closed, ?_⟩
    simpa using h.current client hclient
  nodup := by
    -- the client was open, so it is closed for the first time
    refine List.nodup_append.mpr ⟨h.nodup, by simp, fun other hother last hlast => ?_⟩
    rintro rfl
    exact hopen (List.mem_singleton.mp hlast ▸ hother)
  left other hmem := (h.left other hmem).imp_left (List.mem_append_left _)

/-- A client that is just built was never closed. -/
theorem not_mem_closed (h : Clients settings s) (kind : ClientKind) :
    (⟨s.built.length, kind⟩ : RedisClient) ∉ s.closed :=
  fun hmem => h.not_mem_built kind (h.closed hmem)

end Clients

/-- `get_redis` hands out the client of the module, or builds one. -/
theorem getRedis_cases (settings : RedisSettings) (s : RedisModule) (faults : Faults) :
    s.getRedis settings faults = (s.client, s) ∨
      s.client = none ∧ ∃ kind, (kind = .fake → s.useFake = true ∨ settings.ChoosesFake) ∧
        (kind = .real → ¬ settings.ChoosesFake) ∧ faults.raises kind = false ∧
        s.getRedis settings faults = (some ⟨s.built.length, kind⟩, s.build kind) := by
  rcases hclient : s.client with _ | client
  swap
  · exact .inl (by simp [getRedis, hclient])
  -- the build of the client that is chosen, real or in memory
  by_cases hraises :
    faults.raises (if s.useFake = true ∨ settings.ChoosesFake then .fake else .real) = true
  · exact .inl (by simp [getRedis, hclient, hraises])
  · refine .inr ⟨rfl, _, ?_, ?_, by simpa using hraises, by simp [getRedis, hclient, hraises]; rfl⟩
    · split_ifs with hfake
      · exact fun _ => hfake
      · simp
    · split_ifs with hfake
      · simp
      · exact fun _ hchooses => hfake (.inr hchooses)

/-- A coroutine that closes nothing goes on with the client of the module. -/
theorem Inv.of_clients (h : Clients settings s)
    (hopen : ∀ client, s.client = some client → client ∉ s.closed) {lifecycle : Lifecycle}
    (hcloses : lifecycle.closes = false)
    (hprobed : ∀ client, lifecycle.probed = some client → s.client = some client) :
    Inv settings { s with lifecycle } where
  toClients := h.withLifecycle lifecycle
  openUntil client hclient := by simp [hopen client hclient, hcloses]
  closing := by simp [hcloses]
  resets hresets := by rcases lifecycle <;> simp_all [Lifecycle.resets, Lifecycle.closes]
  probed := hprobed

namespace Inv

/-- While nothing is closed, the client of the module is open. -/
theorem not_mem_closed (h : Inv settings s) (hcloses : s.lifecycle.closes = false)
    (client : RedisClient) (hclient : s.client = some client) : client ∉ s.closed := by
  rw [h.openUntil client hclient, hcloses]
  simp

/-- While something is closed, it is the client of the module. -/
theorem mem_closed (h : Inv settings s) (hcloses : s.lifecycle.closes = true)
    (client : RedisClient) (hclient : s.client = some client) : client ∈ s.closed :=
  (h.openUntil client hclient).mpr hcloses

/-- A client is built only while there is none, so nothing that is probed or being closed is
replaced. -/
theorem getRedis (h : Inv settings s) (faults : Faults) :
    Inv settings (s.getRedis settings faults).2 := by
  rcases getRedis_cases settings s faults with hsame | ⟨hnone, kind, hfake, hreal, -, hbuild⟩
  · rwa [hsame]
  · rw [hbuild]
    -- nobody closes a client that is not there
    have hcloses : s.lifecycle.closes = false := by
      have hclosing := mt h.closing
      simpa [hnone] using hclosing
    refine of_clients (h.toClients.build hnone ?_ hreal) ?_ hcloses fun client hclient => ?_
    · exact fun hkind => (hfake hkind).elim h.useFake .inl
    · rintro client hclient
      obtain rfl := Option.some.inj hclient
      exact h.toClients.not_mem_closed kind
    · -- nor is it probed
      have hprobed := h.probed client hclient
      rw [hnone] at hprobed
      exact absurd hprobed (by simp)

/-- What is handed out is the client of the module. -/
theorem exists_getRedis_eq (h : Inv settings s) (hcloses : s.lifecycle.closes = false)
    (faults : Faults) : ∃ client? s', s.getRedis settings faults = (client?, s') ∧ Inv settings s' ∧
      s'.lifecycle.closes = false ∧ s'.client = client? := by
  have hget := h.getRedis faults
  rcases getRedis_cases settings s faults with hsame | ⟨hnone, kind, hfake, hreal, -, hbuild⟩
  · rw [hsame] at hget
    exact ⟨_, _, hsame, hget, hcloses, rfl⟩
  · rw [hbuild] at hget
    exact ⟨_, _, hbuild, hget, hcloses, rfl⟩

/-- The client in memory takes the place of one that was closed. -/
theorem degrade (h : Clients settings s)
    (hclosed : ∀ client, s.client = some client → client ∈ s.closed)
    (hproduction : settings.isProduction = false) (faults : Faults) :
    Inv settings (s.degrade settings faults) := by
  have hdropped := (h.dropped hclosed).withUseFake (.inr hproduction)
  rw [RedisModule.degrade]
  rcases
    getRedis_cases settings { s with client := none, pool := none, useFake := true } faults with
    hsame | ⟨hnone, kind, hfake, hreal, -, hbuild⟩
  · -- the client in memory cannot be built either
    rw [hsame]
    exact of_clients hdropped (by simp) rfl (by simp [Lifecycle.probed])
  · rw [hbuild]
    refine of_clients (hdropped.build hnone (fun _ => .inr hproduction) hreal) ?_ rfl ?_
    · rintro client hclient
      obtain rfl := Option.some.inj hclient
      exact h.not_mem_closed kind
    · exact fun _ hprobed => hprobed

/-- A coroutine starts to close the client of the module. -/
theorem startClosing (h : Inv settings s) (hcloses : s.lifecycle.closes = false)
    {client : RedisClient} (hclient : s.client = some client) {lifecycle : Lifecycle}
    (hcloses' : lifecycle.closes = true) (hprobed : lifecycle.probed = none)
    (hresets : lifecycle.resets = true → settings.isProduction = false) :
    Inv settings { s with lifecycle, closed := s.closed ++ [client] } where
  toClients := (h.toClients.closeCurrent hclient
    (h.not_mem_closed hcloses client hclient)).withLifecycle lifecycle
  openUntil other hother := by
    obtain rfl := Option.some.inj (hclient.symm.trans hother)
    simp [hcloses']
  closing _ := by simp [hclient]
  resets := hresets
  probed other hother := by simp [hprobed] at hother

/-- The handler gives up, or starts to close the client that has not answered. -/
theorem initFailed (h : Inv settings s) (hcloses : s.lifecycle.closes = false) (faults : Faults) :
    Inv settings (s.initFailed settings faults) := by
  rw [RedisModule.initFailed]
  by_cases hproduction : settings.isProduction = true
  · rw [if_pos hproduction]
    exact of_clients h.toClients (h.not_mem_closed hcloses) rfl (by simp [Lifecycle.probed])
  · rw [if_neg hproduction]
    rcases Option.eq_none_or_eq_some s.client with hnone | ⟨client, hclient⟩
    · -- the client could not be built, so there is nothing to close
      have hdegrade := degrade h.toClients (by simp [hnone]) (by simpa using hproduction) faults
      simpa only [hnone, h.pool hnone, Option.isSome_none, Bool.false_eq_true, ↓reduceIte]
        using hdegrade
    · have hclosing : Inv settings
          { s with lifecycle := .resettingClient, closed := s.closed ++ [client] } :=
        h.startClosing hcloses hclient rfl rfl fun _ => by simpa using hproduction
      simpa only [hclient] using hclosing

/-- `init_redis` when nothing is being closed. -/
theorem initRedis (h : Inv settings s) (hcloses : s.lifecycle.closes = false) (faults : Faults) :
    Inv settings (s.initRedis settings faults) := by
  rw [RedisModule.initRedis]
  split_ifs with hchooses
  · have huse : Inv settings { s with useFake := true } :=
      ⟨h.toClients.withUseFake (.inl hchooses), h.openUntil, h.closing, h.resets, h.probed⟩
    obtain ⟨client?, s', hget, hs', hcloses', hcurrent⟩ := huse.exists_getRedis_eq hcloses faults
    rw [hget]
    rcases client? with _ | client
    · exact of_clients hs'.toClients (hs'.not_mem_closed hcloses') rfl (by simp [Lifecycle.probed])
    · exact of_clients hs'.toClients (hs'.not_mem_closed hcloses') rfl
        fun _ hprobed => hcurrent.trans hprobed
  · obtain ⟨client?, s', hget, hs', hcloses', hcurrent⟩ := h.exists_getRedis_eq hcloses faults
    rw [hget]
    rcases client? with _ | client
    · exact hs'.initFailed hcloses' faults
    · exact of_clients hs'.toClients (hs'.not_mem_closed hcloses') rfl
        fun _ hprobed => hcurrent.trans hprobed

/-- The end of `close_redis`. -/
theorem closeFinally (h : Clients settings s)
    (hclosed : ∀ client, s.client = some client → client ∈ s.closed) :
    Inv settings s.closeFinally := by
  have hdropped := h.dropped hclosed
  exact
    { ids := h.ids
      fake := h.fake
      real := h.real
      useFake := by simp [RedisModule.closeFinally]
      current := by simp [RedisModule.closeFinally]
      pool := fun _ => rfl
      closed := h.closed
      nodup := h.nodup
      left := hdropped.left
      openUntil := by simp [RedisModule.closeFinally]
      closing := by simp [RedisModule.closeFinally, Lifecycle.closes]
      resets := by simp [RedisModule.closeFinally, Lifecycle.resets]
      probed := by simp [RedisModule.closeFinally, Lifecycle.probed] }

/-- The shutdown starts to close the client, or has nothing to close. -/
theorem closeRedis (h : Inv settings s) (hcloses : s.lifecycle.closes = false) :
    Inv settings s.closeRedis := by
  rw [RedisModule.closeRedis]
  rcases Option.eq_none_or_eq_some s.client with hnone | ⟨client, hclient⟩
  · have hfinally := closeFinally h.toClients (by simp [hnone])
    simpa only [hnone, h.pool hnone, Option.isSome_none, Bool.false_eq_true, ↓reduceIte]
      using hfinally
  · have hclosing : Inv settings
        { s with lifecycle := .closingClient, closed := s.closed ++ [client] } :=
      h.startClosing hcloses hclient rfl rfl (by simp [Lifecycle.resets])
    simpa only [hclient] using hclosing

/-- The coroutine that closes goes from the client on to the pool. -/
theorem closingPool (h : Inv settings s) (hcloses : s.lifecycle.closes = true)
    {lifecycle : Lifecycle} (hcloses' : lifecycle.closes = true)
    (hprobed : lifecycle.probed = none)
    (hresets : lifecycle.resets = true → s.lifecycle.resets = true) :
    Inv settings { s with lifecycle } where
  toClients := h.toClients.withLifecycle lifecycle
  openUntil client hclient := by simp [h.mem_closed hcloses client hclient, hcloses']
  closing _ := h.closing hcloses
  resets hlifecycle := h.resets (hresets hlifecycle)
  probed client hclient := by simp [hprobed] at hclient

/-- The client that is probed answers, and everybody is handed it from now on. -/
theorem pingAnswered (h : Inv settings s) (hcloses : s.lifecycle.closes = false)
    {client : RedisClient} (hprobed : s.lifecycle.probed = some client) :
    Inv settings { s with lifecycle := .ready client } := by
  refine of_clients h.toClients (h.not_mem_closed hcloses) rfl fun other hother => ?_
  have hclient : s.client = some client := h.probed client hprobed
  exact hclient.trans hother

/-- A ping that raises leaves the client as it is. -/
theorem pingRaised (h : Inv settings s) (hcloses : s.lifecycle.closes = false) :
    Inv settings { s with lifecycle := .raised } :=
  of_clients h.toClients (h.not_mem_closed hcloses) rfl (by simp [Lifecycle.probed])

/-- Every event keeps the invariant. -/
theorem step (h : Inv settings s) (event : RedisEvent) : Inv settings (s.step settings event) := by
  rcases event with faults | faults | ⟨answer, faults⟩ | ⟨raises, faults⟩ | _
  · exact h.getRedis faults
  · -- `init_redis` only starts where nothing else runs
    unfold RedisModule.step
    dsimp only
    split
    · next hidle => exact h.initRedis (by rw [hidle]; rfl) faults
    · exact h
  · -- the answer to the ping of a client that is open and current
    unfold RedisModule.step
    dsimp only
    split
    · next client hping =>
      have hcloses : s.lifecycle.closes = false := by rw [hping]; rfl
      split_ifs
      · exact h.pingRaised hcloses
      · exact h.pingAnswered hcloses (by rw [hping]; rfl)
    · next client hping =>
      have hcloses : s.lifecycle.closes = false := by rw [hping]; rfl
      split_ifs
      · exact h.pingRaised hcloses
      · exact h.pingAnswered hcloses (by rw [hping]; rfl)
    · next client hping =>
      have hcloses : s.lifecycle.closes = false := by rw [hping]; rfl
      split_ifs
      · exact h.pingAnswered hcloses (by rw [hping]; rfl)
      · -- the real client has not answered
        exact h.initFailed hcloses faults
    · exact h
  · -- a close has ended: the client that was closed is replaced, or let go
    unfold RedisModule.step
    dsimp only
    split
    · next hresetting =>
      have hcloses : s.lifecycle.closes = true := by rw [hresetting]; rfl
      have hproduction := h.resets (by rw [hresetting]; rfl)
      split_ifs
      · exact h.closingPool hcloses rfl rfl (by simp [hresetting, Lifecycle.resets])
      · exact degrade h.toClients (h.mem_closed hcloses) hproduction faults
    · next hresetting =>
      have hcloses : s.lifecycle.closes = true := by rw [hresetting]; rfl
      exact degrade h.toClients (h.mem_closed hcloses) (h.resets (by rw [hresetting]; rfl)) faults
    · next hclosing =>
      have hcloses : s.lifecycle.closes = true := by rw [hclosing]; rfl
      split_ifs
      · exact h.closingPool hcloses rfl rfl (by simp [Lifecycle.resets])
      · exact closeFinally h.toClients (h.mem_closed hcloses)
    · next hclosing =>
      have hcloses : s.lifecycle.closes = true := by rw [hclosing]; rfl
      exact closeFinally h.toClients (h.mem_closed hcloses)
    · exact h
  · -- `close_redis` only starts where no other coroutine awaits
    unfold RedisModule.step
    dsimp only
    split
    any_goals exact h
    all_goals next hlifecycle => exact h.closeRedis (by rw [hlifecycle]; rfl)

end Inv

/-- The invariant holds after every run. -/
theorem inv_run (settings : RedisSettings) (events : List RedisEvent) :
    Inv settings (run settings events) := by
  refine Runs.foldl_invariant (A := fun _ => True) (J := Inv settings)
    (fun _ event _ h => h.step event) ?_ fun _ _ => trivial
  exact
    { clients_start with
      openUntil := by simp [start]
      closing := by simp [start, Lifecycle.closes]
      resets := by simp [start, Lifecycle.resets]
      probed := by simp [start, Lifecycle.probed] }

/-- A client that is ready stays so until the module is closed. -/
theorem lifecycle_step_of_ready {client : RedisClient} (hready : s.lifecycle = .ready client)
    {event : RedisEvent} (hevent : event ≠ .closeRedis) :
    (s.step settings event).lifecycle = .ready client := by
  rcases event with faults | faults | ⟨answer, faults⟩ | ⟨raises, faults⟩ | _
  · rw [step]
    rcases getRedis_cases settings s faults with hsame | ⟨hnone, kind, hfake, hreal, -, hbuild⟩
    · rw [hsame]
      exact hready
    · rw [hbuild]
      exact hready
  · simp [step, hready]
  · simp [step, hready]
  · simp [step, hready]
  · exact absurd rfl hevent

/-- From the end of a startup that succeeds to the start of the shutdown, everybody is handed the
client that has answered its probe, and it is open. In production it is the one in memory exactly
when the settings choose it. -/
theorem getRedis_of_ready (settings : RedisSettings) (before after : List RedisEvent)
    {client : RedisClient} (hready : (run settings before).lifecycle = .ready client)
    (hafter : ∀ event ∈ after, event ≠ .closeRedis) (faults : Faults) :
    ((run settings (before ++ after)).getRedis settings faults).1 = some client ∧
      client ∉ (run settings (before ++ after)).closed ∧
      (settings.isProduction = true → (client.kind = .fake ↔ settings.ChoosesFake)) := by
  have hlifecycle : (run settings (before ++ after)).lifecycle = .ready client := by
    rw [run, List.foldl_append, ← run]
    exact Runs.foldl_invariant (A := fun event => event ≠ .closeRedis)
      (J := fun s : RedisModule => s.lifecycle = .ready client)
      (fun _ _ hevent h => lifecycle_step_of_ready h hevent) hready hafter
  have hinv := inv_run settings (before ++ after)
  have hclient := hinv.probed client (by rw [hlifecycle]; rfl)
  refine ⟨?_, hinv.not_mem_closed (by rw [hlifecycle]; rfl) client hclient, fun hproduction => ?_⟩
  · rw [getRedis, if_pos (by rw [hclient]; rfl)]
    exact hclient
  · have hbuilt := hinv.current client hclient
    constructor
    · intro hkind
      exact (hinv.fake client hbuilt hkind).resolve_right (by simp [hproduction])
    · intro hchooses
      rcases hkind : client.kind
      · exact absurd hchooses (hinv.real client hbuilt hkind)
      · rfl

/-- Whenever no coroutine is closing anything, `aclose` was called once on every client ever built
but the one of the module, and never on this one. -/
theorem count_closed_of_built (settings : RedisSettings) (events : List RedisEvent)
    (hcloses : (run settings events).lifecycle.closes = false) {client : RedisClient}
    (hbuilt : client ∈ (run settings events).built) :
    (run settings events).closed.count client =
      if (run settings events).client = some client then 0 else 1 := by
  have hinv := inv_run settings events
  split_ifs with hcurrent
  · exact List.count_eq_zero.mpr (hinv.not_mem_closed hcloses client hcurrent)
  · exact List.count_eq_one_of_mem hinv.nodup ((hinv.left client hbuilt).resolve_right hcurrent)

/-- Redis does not answer at the first ping of a development machine. -/
def fallback : List RedisEvent :=
  [.initRedis {}, .get {}, .pinged .raises {}, .get {}, .awaited false {}, .awaited true {},
   .get {}, .pinged .truthy {}]

/-- Whatever raises later, the client in memory that took its place is handed out. -/
theorem getRedis_fallback :
    ((run {} (fallback ++ [.get ⟨true, true⟩, .pinged .raises ⟨true, true⟩])).getRedis {}
        ⟨true, true⟩).1 = some ⟨1, .fake⟩ ∧
      ⟨1, .fake⟩ ∉
        (run {} (fallback ++ [.get ⟨true, true⟩, .pinged .raises ⟨true, true⟩])).closed ∧
      (({} : RedisSettings).isProduction = true →
        (ClientKind.fake = .fake ↔ ({} : RedisSettings).ChoosesFake)) :=
  getRedis_of_ready {} fallback [.get ⟨true, true⟩, .pinged .raises ⟨true, true⟩] (by decide)
    (by simp) ⟨true, true⟩

theorem count_closed_fallback :
    (run {} fallback).closed.count ⟨0, .real⟩ =
      if (run {} fallback).client = some ⟨0, .real⟩ then 0 else 1 :=
  count_closed_of_built {} fallback (by decide) (by decide)

/-- A URL that `from_url` does not accept: the client in memory is built at once and nothing was
closed, and in production the startup gives up. -/
example :
    let events : List RedisEvent := [.initRedis ⟨true, false⟩, .pinged .truthy ⟨true, false⟩]
    (run { redisUrl := some "localhost" } events).lifecycle = .ready ⟨0, .fake⟩ ∧
      (run { redisUrl := some "localhost" } events).closed = [] ∧
      (run { redisUrl := some "localhost", isProduction := true } events).lifecycle =
        .refused := by
  decide

end RedisModule

end TradingSimulator
