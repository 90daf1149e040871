import TradingSimulator.Library.Runs
import Mathlib.Data.Finset.Basic

/-!
# The schema bootstrap

`bootstrap` (`app/core/db_bootstrap.py`) adopts a database that was built without Alembic, upgrades
it to the head revision, and creates the missing tables when the upgrade fails. A database is the
set of its tables and the revision that Alembic has recorded in it, and the commands of Alembic are
those of its documentation: `stamp` records a revision, `upgrade head` does nothing at the head and
fails without effect when a table it creates exists or when it does not know the revision.

One table is enough to be adopted, and a database at the baseline is not looked at any more, so
`bootstrap` may report a schema of which it has built nothing. `bootstrap_sound_iff` says when its
report can be relied on.
-/

namespace TradingSimulator

/-- The tables of a database and the revision recorded in it. -/
structure Database where
  tables : Finset String
  revision : Option String
  /-- A revision is recorded in a table of its own. -/
  versioned : revision.isSome → "alembic_version" ∈ tables

/-- `BASELINE_REVISION`, which is the head as well. -/
def BASELINE_REVISION : String := "0001_baseline"

def SENTINEL_TABLE : String := "users"

/-- The tables that the baseline revision creates. -/
def baselineTables : Finset String :=
  {"users", "risk_profiles", "orders", "trades", "positions", "equity_history",
    "idempotency_records"}

/-- The tables of the ORM metadata. -/
def metadataTables : Finset String :=
  {"users", "risk_profiles", "orders", "trades", "positions", "equity_history",
    "idempotency_records"}

/-- What happens to one run apart from the schema: whether the database answers in time, and which
steps raise an exception of their own. -/
structure Attempt where
  reachable : Bool
  adoptRaises : Bool
  upgradeRaises : Bool
  createAllRaises : Bool

namespace Database

/-- `alembic stamp`. -/
def stamp (db : Database) (revision : String) : Database where
  tables := insert "alembic_version" db.tables
  revision := some revision
  versioned _ := Finset.mem_insert_self _ _

/-- `alembic upgrade head`, `none` for an exception. -/
def upgrade (db : Database) : Option Database :=
  match db.revision with
  | none =>
    if Disjoint db.tables baselineTables then
      some {
        tables := insert "alembic_version" (db.tables ∪ baselineTables)
        revision := some BASELINE_REVISION
        versioned _ := Finset.mem_insert_self _ _ }
    else none
  | some revision => if revision = BASELINE_REVISION then some db else none

/-- `Base.metadata.create_all`. -/
def createAll (db : Database) : Database where
  tables := db.tables ∪ metadataTables
  revision := db.revision
  versioned h := Finset.mem_union_left _ (db.versioned h)

end Database

/-- `_adopt_existing_schema`. An exception is logged by the caller and has no effect. -/
def adoptExistingSchema (attempt : Attempt) (db : Database) : Database × Bool :=
  if attempt.adoptRaises then (db, false)
  else if "alembic_version" ∈ db.tables then (db, false)
  else if SENTINEL_TABLE ∉ db.tables then (db, false)
  else (db.stamp BASELINE_REVISION, true)

/-- `_upgrade_to_head`. -/
def upgradeToHead (attempt : Attempt) (db : Database) : Database × Bool :=
  if attempt.upgradeRaises then (db, false)
  else
    match db.upgrade with
    | some db => (db, true)
    | none => (db, false)

/-- `_create_all_fallback`. -/
def createAllFallback (attempt : Attempt) (db : Database) : Database × Bool :=
  if attempt.createAllRaises then (db, false) else (db.createAll, true)

/-- `bootstrap`: the database it leaves and its answer. -/
def bootstrap (attempt : Attempt) (db : Database) : Database × Bool :=
  if attempt.reachable then
    let adopted := (adoptExistingSchema attempt db).1
    let (upgraded, success) := upgradeToHead attempt adopted
    if success then (upgraded, true) else createAllFallback attempt upgraded
  else (db, false)

/-- The database after some runs of `bootstrap`. -/
def bootstrapRuns (db : Database) (attempts : List Attempt) : Database :=
  attempts.foldl (fun db attempt => (bootstrap attempt db).1) db

/-- The upgrade finds the database at the baseline: it is recorded there already, or it is adopted
for its `users` table. -/
def TakenForBaseline (attempt : Attempt) (db : Database) : Prop :=
  attempt.reachable = true ∧ attempt.upgradeRaises = false ∧
    (db.revision = some BASELINE_REVISION ∨
      (attempt.adoptRaises = false ∧ "alembic_version" ∉ db.tables ∧ SENTINEL_TABLE ∈ db.tables))

/-! ### The steps -/

theorem alembic_version_notMem : "alembic_version" ∉ metadataTables := by decide

/-- Stamping adds a table that is none of the metadata. -/
theorem metadataTables_subset_stamp {db : Database} {revision : String} :
    metadataTables ⊆ (db.stamp revision).tables ↔ metadataTables ⊆ db.tables :=
  Finset.subset_insert_iff_of_notMem alembic_version_notMem

theorem upgrade_of_baseline {db : Database} (h : db.revision = some BASELINE_REVISION) :
    db.upgrade = some db := by
  simp only [Database.upgrade, h, if_pos]

/-- An upgrade that has something to do creates all tables. -/
theorem tables_upgrade {db upgraded : Database} (h : db.upgrade = some upgraded)
    (hrevision : db.revision ≠ some BASELINE_REVISION) :
    upgraded.tables = insert "alembic_version" (db.tables ∪ metadataTables) := by
  unfold Database.upgrade at h
  split at h
  · split_ifs at h with hdisjoint
    cases h
    rfl
  · next revision hsome =>
    split_ifs at h with hbaseline
    exact absurd (hsome.trans (congrArg some hbaseline)) hrevision

/-- A step keeps the tables, whatever it answers. -/
theorem subset_adoptExistingSchema (attempt : Attempt) (db : Database) :
    db.tables ⊆ (adoptExistingSchema attempt db).1.tables := by
  unfold adoptExistingSchema
  split_ifs
  · exact Finset.Subset.refl _
  · exact Finset.Subset.refl _
  · exact Finset.subset_insert _ _
  · exact Finset.Subset.refl _

/-- No upgrade drops a table. -/
theorem subset_upgradeToHead (attempt : Attempt) (db : Database) :
    db.tables ⊆ (upgradeToHead attempt db).1.tables := by
  unfold upgradeToHead
  split_ifs
  · exact Finset.Subset.refl _
  · split
    · next upgraded h =>
      by_cases hrevision : db.revision = some BASELINE_REVISION
      · rw [upgrade_of_baseline hrevision] at h
        exact (Option.some.inj h) ▸ Finset.Subset.refl _
      · rw [tables_upgrade h hrevision]
        exact Finset.subset_union_left.trans (Finset.subset_insert _ _)
    · exact Finset.Subset.refl _

/-- The fallback drops no table. -/
theorem subset_createAllFallback (attempt : Attempt) (db : Database) :
    db.tables ⊆ (createAllFallback attempt db).1.tables := by
  unfold createAllFallback
  split_ifs
  · exact Finset.Subset.refl _
  · exact Finset.subset_union_left

/-- No run removes a table. -/
theorem subset_bootstrap (attempt : Attempt) (db : Database) :
    db.tables ⊆ (bootstrap attempt db).1.tables := by
  unfold bootstrap
  split_ifs with hreachable
  · have hadopt := subset_adoptExistingSchema attempt db
    have hupgrade := subset_upgradeToHead attempt (adoptExistingSchema attempt db).1
    dsimp only
    split_ifs
    · exact hadopt.trans hupgrade
    · exact (hadopt.trans hupgrade).trans (subset_createAllFallback attempt _)
  · exact Finset.Subset.refl _

/-- However often the bootstrap runs, no table is lost. -/
theorem subset_bootstrapRuns (db : Database) (attempts : List Attempt) :
    db.tables ⊆ (bootstrapRuns db attempts).tables :=
  Runs.foldl_invariant (A := fun _ => True) (J := fun after => db.tables ⊆ after.tables)
    (fun after attempt _ h => h.trans (subset_bootstrap attempt after)) (Finset.Subset.refl _)
    fun _ _ => trivial

/-! ### What the answer says -/

/-- A database that is taken for one at the baseline is not built any further. -/
theorem bootstrap_of_taken {attempt : Attempt} {db : Database} (h : TakenForBaseline attempt db) :
    (bootstrap attempt db).2 = true ∧
      (metadataTables ⊆ (bootstrap attempt db).1.tables ↔ metadataTables ⊆ db.tables) := by
  obtain ⟨hreachable, hraises, htaken⟩ := h
  rcases htaken with hrevision | ⟨hadopt, hversion, hsentinel⟩
  · -- the version table exists, so there is nothing to adopt
    have hversion : "alembic_version" ∈ db.tables := db.versioned (by rw [hrevision]; rfl)
    have hadopted : (adoptExistingSchema attempt db).1 = db := by
      simp [adoptExistingSchema, hversion]
    simp [bootstrap, hreachable, hadopted, upgradeToHead, hraises, upgrade_of_baseline hrevision]
  · -- the stamp alone makes the upgrade believe that everything is there
    have hadopted : (adoptExistingSchema attempt db).1 = db.stamp BASELINE_REVISION := by
      simp [adoptExistingSchema, hadopt, hversion, hsentinel]
    have hupgraded : (db.stamp BASELINE_REVISION).upgrade = some (db.stamp BASELINE_REVISION) :=
      upgrade_of_baseline rfl
    simp [bootstrap, hreachable, hadopted, upgradeToHead, hraises, hupgraded,
      metadataTables_subset_stamp]

/-- After adoption the baseline is recorded only where it was before, or where it was stamped. -/
theorem revision_adoptExistingSchema {attempt : Attempt} {db : Database}
    (h : (adoptExistingSchema attempt db).1.revision = some BASELINE_REVISION) :
    db.revision = some BASELINE_REVISION ∨
      (attempt.adoptRaises = false ∧ "alembic_version" ∉ db.tables ∧
        SENTINEL_TABLE ∈ db.tables) := by
  unfold adoptExistingSchema at h
  split_ifs at h with hraises hversion hsentinel
  · exact Or.inl h
  · exact Or.inl h
  · -- the only branch that stamps
    exact Or.inr ⟨by simpa using hraises, hversion, hsentinel⟩
  · exact Or.inl h

/-- An upgrade that does not start from a stamped baseline leaves every table when it succeeds. -/
theorem upgradeToHead_of_true {attempt : Attempt} {db : Database}
    (hbaseline : attempt.upgradeRaises = true ∨ db.revision ≠ some BASELINE_REVISION)
    (hsuccess : (upgradeToHead attempt db).2 = true) :
    metadataTables ⊆ (upgradeToHead attempt db).1.tables := by
  unfold upgradeToHead at hsuccess ⊢
  split_ifs at hsuccess ⊢ with hraises
  have hrevision := hbaseline.resolve_left hraises
  cases hupgrade : db.upgrade with
  | none => simp [hupgrade] at hsuccess
  | some upgraded =>
    show metadataTables ⊆ upgraded.tables
    rw [tables_upgrade hupgrade hrevision]
    exact Finset.subset_union_right.trans (Finset.subset_insert _ _)

/-- When the fallback succeeds, every table is there. -/
theorem createAllFallback_of_true {attempt : Attempt} {db : Database}
    (hsuccess : (createAllFallback attempt db).2 = true) :
    metadataTables ⊆ (createAllFallback attempt db).1.tables := by
  unfold createAllFallback at hsuccess ⊢
  split_ifs at hsuccess ⊢
  exact Finset.subset_union_right

/-- Any other database has all tables when the answer is positive. -/
theorem bootstrap_of_not_taken {attempt : Attempt} {db : Database}
    (h : ¬ TakenForBaseline attempt db) (hsuccess : (bootstrap attempt db).2 = true) :
    metadataTables ⊆ (bootstrap attempt db).1.tables := by
  unfold bootstrap at hsuccess ⊢
  split_ifs at hsuccess ⊢ with hreachable
  -- what the upgrade finds is not at the baseline, so that it does something or fails
  have hbaseline : attempt.upgradeRaises = true ∨
      (adoptExistingSchema attempt db).1.revision ≠ some BASELINE_REVISION := by
    by_contra hboth
    push Not at hboth
    exact h ⟨hreachable, by simpa using hboth.1, revision_adoptExistingSchema hboth.2⟩
  dsimp only at hsuccess ⊢
  split_ifs at hsuccess ⊢ with hupgraded
  · exact upgradeToHead_of_true hbaseline hupgraded
  · exact createAllFallback_of_true hsuccess

/-- From a positive answer on, all tables of the metadata exist and none of the tables before is
gone, if and only if the tables had all existed or the database was not taken for one at the
baseline. -/
theorem bootstrap_sound_iff (attempt : Attempt) (db : Database) :
    ((bootstrap attempt db).2 = true → ∀ further : List Attempt,
        metadataTables ⊆ (bootstrapRuns (bootstrap attempt db).1 further).tables ∧
          db.tables ⊆ (bootstrapRuns (bootstrap attempt db).1 further).tables) ↔
      metadataTables ⊆ db.tables ∨ ¬ TakenForBaseline attempt db := by
  constructor
  · -- no further run is needed to see a table missing
    intro h
    refine or_iff_not_imp_right.mpr fun htaken => ?_
    obtain ⟨hsuccess, htables⟩ := bootstrap_of_taken (not_not.mp htaken)
    exact htables.mp (h hsuccess []).1
  · -- whatever the further runs do, they remove no table
    intro h hsuccess further
    have hkept := subset_bootstrap attempt db
    have hruns := subset_bootstrapRuns (bootstrap attempt db).1 further
    refine ⟨?_, hkept.trans hruns⟩
    rcases h with hall | hnot
    · exact hall.trans (hkept.trans hruns)
    · exact (bootstrap_of_not_taken hnot hsuccess).trans hruns

/-- A database that only has the table of the users. -/
def usersOnly : Database where
  tables := {"users"}
  revision := none
  versioned := nofun

/-- Nothing goes wrong outside the schema. -/
def plainAttempt : Attempt :=
  { reachable := true, adoptRaises := false, upgradeRaises := false, createAllRaises := false }

/-- It is adopted, and reported as usable without six of its seven tables. -/
theorem bootstrap_usersOnly :
    (bootstrap plainAttempt usersOnly).2 = true ∧
      (bootstrap plainAttempt usersOnly).1.tables = {"alembic_version", "users"} ∧
      "trades" ∈ metadataTables ∧ "trades" ∉ (bootstrap plainAttempt usersOnly).1.tables := by
  decide

end TradingSimulator
