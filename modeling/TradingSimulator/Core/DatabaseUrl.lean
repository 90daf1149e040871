import TradingSimulator.Library.TextRewriting

/-!
# Database URLs

The settings (`app/core/config.py`) and the environment of the migrations (`alembic/env.py`) both
read a URL of the database, in any of five spellings of Postgres. One table of beginnings serves
both, and nothing behind the beginning is touched. For SQLite the two differ: the settings leave
such a URL alone, while `_sync_url` deletes the name of the asynchronous driver from it
(`databaseUrl_spec`).
-/

namespace TradingSimulator.DatabaseUrl

open TextRewriting

def PG_SYNC_PREFIX : String := "postgresql+psycopg2://"

def PG_ASYNC_PREFIX : String := "postgresql+asyncpg://"

/-- `_PG_PREFIXES`. -/
def PG_PREFIXES : List String :=
  ["postgres://", "postgresql://", "postgresql+psycopg://", "postgresql+psycopg2://",
    "postgresql+asyncpg://"]

/-- The loop over `_PG_PREFIXES`: the URL with `target` in the place of the first that it starts
with. -/
def coerce (target url : String) : Option String :=
  (rewrite (PG_PREFIXES.map String.toList) target.toList url.toList).map String.ofList

/-- `to_sync_pg_url`. -/
def toSyncPgUrl (url : String) : String := (coerce PG_SYNC_PREFIX url).getD url

/-- `to_async_pg_url`. -/
def toAsyncPgUrl (url : String) : String :=
  match coerce PG_ASYNC_PREFIX url with
  | some url => url
  | none =>
    -- no Postgres: the two spellings of SQLite
    if "sqlite+aiosqlite:///".toList.isPrefixOf url.toList then url
    else if "sqlite:///".toList.isPrefixOf url.toList then
      "sqlite+aiosqlite:///" ++ String.ofList (url.toList.drop "sqlite:///".length)
    else url

/-- `_normalize_database_url`, the validator of the settings. -/
def normalizeDatabaseUrl (v : String) : String := toSyncPgUrl v

/-- The URL names the asynchronous driver of SQLite. -/
def HasAiosqlite (url : String) : Prop := "+aiosqlite".toList <:+: url.toList

instance (url : String) : Decidable (HasAiosqlite url) :=
  inferInstanceAs (Decidable ("+aiosqlite".toList <:+: url.toList))

/-- `_sync_url` of the migrations. -/
def syncUrl (url : String) : String :=
  let url := toSyncPgUrl url
  if HasAiosqlite url then String.ofList (delete "+aiosqlite".toList url.toList) else url

/-! ### Postgres -/

theorem prefixFree_PG_PREFIXES : PrefixFree (PG_PREFIXES.map String.toList) := by
  decide +kernel

/-- Every accepted spelling is replaced, and what comes behind it is kept. -/
theorem coerce_append {start : String} (hstart : start ∈ PG_PREFIXES) (target rest : String) :
    coerce target (start ++ rest) = some (target ++ rest) := by
  rw [coerce, String.toList_append,
    rewrite_append prefixFree_PG_PREFIXES (List.mem_map_of_mem hstart), Option.map_some,
    ← String.toList_append, String.ofList_toList]

theorem toSyncPgUrl_append {start : String} (hstart : start ∈ PG_PREFIXES) (rest : String) :
    toSyncPgUrl (start ++ rest) = PG_SYNC_PREFIX ++ rest := by
  rw [toSyncPgUrl, coerce_append hstart, Option.getD_some]

theorem toAsyncPgUrl_append {start : String} (hstart : start ∈ PG_PREFIXES) (rest : String) :
    toAsyncPgUrl (start ++ rest) = PG_ASYNC_PREFIX ++ rest := by
  rw [toAsyncPgUrl, coerce_append hstart]

/-- A URL is either in one of the accepted spellings, or the settings leave it alone. -/
theorem toSyncPgUrl_cases (url : String) :
    (∃ start ∈ PG_PREFIXES, ∃ rest, url = start ++ rest) ∨ toSyncPgUrl url = url := by
  cases hrewrite : rewrite (PG_PREFIXES.map String.toList) PG_SYNC_PREFIX.toList url.toList with
  | none =>
    -- the loop ends without a match, and the URL is returned as it is
    right
    rw [toSyncPgUrl, coerce, hrewrite, Option.map_none, Option.getD_none]
  | some s =>
    left
    obtain ⟨start, hstart, rest, hurl, -⟩ := exists_of_rewrite_eq_some hrewrite
    obtain ⟨start, hmem, rfl⟩ := List.mem_map.mp hstart
    refine ⟨start, hmem, String.ofList rest, ?_⟩
    rw [← String.toList_inj, String.toList_append, String.toList_ofList, hurl]

theorem PG_SYNC_PREFIX_mem : PG_SYNC_PREFIX ∈ PG_PREFIXES := by decide

theorem PG_ASYNC_PREFIX_mem : PG_ASYNC_PREFIX ∈ PG_PREFIXES := by decide

/-- What the settings make of a URL in an accepted spelling. -/
structure IsCoerced (start rest : String) : Prop where
  sync_eq : toSyncPgUrl (start ++ rest) = PG_SYNC_PREFIX ++ rest
  async_eq : toAsyncPgUrl (start ++ rest) = PG_ASYNC_PREFIX ++ rest
  sync_sync : toSyncPgUrl (toSyncPgUrl (start ++ rest)) = toSyncPgUrl (start ++ rest)
  async_async : toAsyncPgUrl (toAsyncPgUrl (start ++ rest)) = toAsyncPgUrl (start ++ rest)
  sync_async : toSyncPgUrl (toAsyncPgUrl (start ++ rest)) = toSyncPgUrl (start ++ rest)
  async_sync : toAsyncPgUrl (toSyncPgUrl (start ++ rest)) = toAsyncPgUrl (start ++ rest)

/-- The two drivers are accepted spellings themselves, so that one step undoes or repeats the
other. -/
theorem isCoerced {start : String} (hstart : start ∈ PG_PREFIXES) (rest : String) :
    IsCoerced start rest where
  sync_eq := toSyncPgUrl_append hstart rest
  async_eq := toAsyncPgUrl_append hstart rest
  sync_sync := by rw [toSyncPgUrl_append hstart, toSyncPgUrl_append PG_SYNC_PREFIX_mem]
  async_async := by rw [toAsyncPgUrl_append hstart, toAsyncPgUrl_append PG_ASYNC_PREFIX_mem]
  sync_async := by
    rw [toAsyncPgUrl_append hstart, toSyncPgUrl_append PG_ASYNC_PREFIX_mem,
      toSyncPgUrl_append hstart]
  async_sync := by
    rw [toSyncPgUrl_append hstart, toAsyncPgUrl_append PG_SYNC_PREFIX_mem,
      toAsyncPgUrl_append hstart]

/-! ### The migrations -/

/-- The settings do not bring the driver of SQLite into a URL. -/
theorem not_hasAiosqlite_toSyncPgUrl {url : String} (h : ¬ HasAiosqlite url) :
    ¬ HasAiosqlite (toSyncPgUrl url) := by
  obtain ⟨start, hstart, rest, rfl⟩ | hsame := toSyncPgUrl_cases url
  · rw [toSyncPgUrl_append hstart, HasAiosqlite, String.toList_append]
    -- the beginning ends in a slash, which is not in the name of the driver
    have hlast : PG_SYNC_PREFIX.toList.getLast? = some '/' := by decide +kernel
    apply not_infix_append
    · rw [hlast]
      rintro c ⟨⟩
      decide +kernel
    · decide +kernel
    · intro hrest
      apply h
      rw [HasAiosqlite, String.toList_append]
      exact hrest.trans (List.suffix_append _ _).isInfix
  · rwa [hsame]

theorem syncUrl_of_not_hasAiosqlite {url : String} (h : ¬ HasAiosqlite url) :
    syncUrl url = normalizeDatabaseUrl url :=
  if_neg (not_hasAiosqlite_toSyncPgUrl h)

theorem syncUrl_of_hasAiosqlite {url : String} (hsame : toSyncPgUrl url = url)
    (h : HasAiosqlite url) :
    syncUrl url = String.ofList (delete "+aiosqlite".toList url.toList) := by
  simp only [syncUrl, hsame, if_pos h]

/-- A URL with another first letter is none of Postgres. -/
theorem toSyncPgUrl_of_head {url : String} (h : url.toList.head? ≠ some 'p') :
    toSyncPgUrl url = url := by
  have hheads : ∀ start ∈ PG_PREFIXES, start.toList.head? = some 'p' := by decide +kernel
  obtain ⟨start, hstart, rest, rfl⟩ | hsame := toSyncPgUrl_cases url
  · rw [String.toList_append, List.head?_append, hheads start hstart, Option.some_or] at h
    exact absurd rfl h
  · exact hsame

/-- The URL of an SQLite database is left as it is. -/
theorem normalizeDatabaseUrl_sqlite (rest : String) :
    normalizeDatabaseUrl ("sqlite+aiosqlite" ++ rest) = "sqlite+aiosqlite" ++ rest := by
  apply toSyncPgUrl_of_head
  have hhead : "sqlite+aiosqlite".toList.head? = some 's' := by decide +kernel
  rw [String.toList_append, List.head?_append, hhead, Option.some_or]
  decide

theorem toList_sqlite (rest : String) :
    ("sqlite+aiosqlite" ++ rest).toList =
      "sqlite".toList ++ ("+aiosqlite".toList ++ rest.toList) := by
  have hword : "sqlite+aiosqlite".toList = "sqlite".toList ++ "+aiosqlite".toList := by
    decide +kernel
  rw [String.toList_append, hword, List.append_assoc]

theorem hasAiosqlite_sqlite (rest : String) : HasAiosqlite ("sqlite+aiosqlite" ++ rest) := by
  rw [HasAiosqlite, toList_sqlite]
  exact ⟨_, _, List.append_assoc _ _ _⟩

/-- The word is deleted behind letters that are none of its first one. -/
theorem delete_sqlite {rest : String} (h : ¬ HasAiosqlite rest) :
    delete "+aiosqlite".toList ("sqlite+aiosqlite" ++ rest).toList =
      "sqlite".toList ++ rest.toList := by
  have hword : "+aiosqlite".toList = '+' :: "aiosqlite".toList := by decide +kernel
  have hne : "+aiosqlite".toList ≠ [] := by decide +kernel
  have hfront : ∀ back, delete ('+' :: "aiosqlite".toList) ("sqlite".toList ++ back) =
      "sqlite".toList ++ delete ('+' :: "aiosqlite".toList) back :=
    fun back => delete_cons_append (by decide +kernel) back
  rw [← hword] at hfront
  rw [toList_sqlite, hfront, delete_append hne, delete_eq_self h]

/-- The migrations run without the event loop, and so without its driver. -/
theorem syncUrl_sqlite {rest : String} (h : ¬ HasAiosqlite rest) :
    syncUrl ("sqlite+aiosqlite" ++ rest) = "sqlite" ++ rest := by
  have hsame : toSyncPgUrl ("sqlite+aiosqlite" ++ rest) = "sqlite+aiosqlite" ++ rest :=
    normalizeDatabaseUrl_sqlite rest
  calc syncUrl ("sqlite+aiosqlite" ++ rest)
      = String.ofList (delete "+aiosqlite".toList ("sqlite+aiosqlite" ++ rest).toList) :=
        syncUrl_of_hasAiosqlite hsame (hasAiosqlite_sqlite rest)
    _ = "sqlite" ++ rest := by
        rw [delete_sqlite h, ← String.toList_append, String.ofList_toList]

/-- The migrations use the URL of the settings unless it names the asynchronous driver of SQLite,
which they delete. In the accepted spellings of Postgres, the beginning is replaced, and nothing
else. -/
theorem databaseUrl_spec :
    (∀ url, ¬ HasAiosqlite url → syncUrl url = normalizeDatabaseUrl url) ∧
      (∀ rest, ¬ HasAiosqlite rest →
        syncUrl ("sqlite+aiosqlite" ++ rest) = "sqlite" ++ rest ∧
          normalizeDatabaseUrl ("sqlite+aiosqlite" ++ rest) = "sqlite+aiosqlite" ++ rest) ∧
      ∀ start ∈ PG_PREFIXES, ∀ rest, IsCoerced start rest :=
  ⟨fun _ h => syncUrl_of_not_hasAiosqlite h,
    fun rest h => ⟨syncUrl_sqlite h, normalizeDatabaseUrl_sqlite rest⟩,
    fun _ hstart rest => isCoerced hstart rest⟩

/-- A Postgres URL of the old spelling and an SQLite one. -/
theorem databaseUrl_spec_examples :
    syncUrl "postgres://app@db/hft" = normalizeDatabaseUrl "postgres://app@db/hft" ∧
      (syncUrl ("sqlite+aiosqlite" ++ ":///./hft.db") = "sqlite" ++ ":///./hft.db" ∧
        normalizeDatabaseUrl ("sqlite+aiosqlite" ++ ":///./hft.db") =
          "sqlite+aiosqlite" ++ ":///./hft.db") ∧
      IsCoerced "postgres://" "app@db/hft" :=
  ⟨databaseUrl_spec.1 _ (by decide +kernel), databaseUrl_spec.2.1 _ (by decide +kernel),
    databaseUrl_spec.2.2 _ (by decide) _⟩

/-- The settings keep the asynchronous driver of a file of SQLite, the migrations do not. -/
theorem not_syncUrl_eq_normalizeDatabaseUrl :
    ¬ ∀ url, syncUrl url = normalizeDatabaseUrl url := by
  intro h
  have hfile : syncUrl "sqlite+aiosqlite:///./hft.db" ≠
      normalizeDatabaseUrl "sqlite+aiosqlite:///./hft.db" := by
    decide +kernel
  exact hfile (h _)

end TradingSimulator.DatabaseUrl
