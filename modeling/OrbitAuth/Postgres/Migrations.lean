import Mathlib.Data.Int.Order.Basic
import Mathlib.Data.List.Basic

/-!
# Migrations — the embedded migrations and the adoption of a legacy schema

The package `migrations` applies nine embedded files through goose's `Provider`. Every entry point
of `Migrator` first runs `adoptLegacy`, which copies what the former hand-written runner recorded in
`schema_migrations` into goose's own version table without running any SQL.

* `Database` holds the two bookkeeping tables and the versions whose `Up` changes are in the schema,
* `adoptLegacy` is translated exit by exit,
* `Provider.up`, `Provider.down` and `Provider.inspect` are what goose does to the database: pending
  versions are applied in ascending order and recorded, the highest applied version is reverted and
  its row deleted, reading the status only creates the version table.
-/

namespace OrbitAuth
namespace Migrations

/-! ## The database -/

/-- An embedded file: goose's version and `path.Base` of its path. -/
structure Source where
  version : Int
  name : String
  deriving DecidableEq, Repr

/-- `provider.ListSources()`: the embedded files, in ascending order of version. -/
def listSources : List Source :=
  [⟨1, "001_auth.sql"⟩, ⟨2, "002_mobile_otp.sql"⟩, ⟨3, "003_password_api_tokens.sql"⟩,
    ⟨4, "004_organizations.sql"⟩, ⟨5, "005_refresh_token_org.sql"⟩,
    ⟨6, "006_organization_invites.sql"⟩, ⟨7, "007_signup_verification.sql"⟩, ⟨8, "008_outbox.sql"⟩,
    ⟨9, "009_feature_flags.sql"⟩]

/-- A row of `goose_db_version`; its `id` and `tstamp` are read by nothing here. -/
structure VersionRow where
  versionID : Int
  isApplied : Bool
  deriving DecidableEq, Repr

structure Database where
  /-- `goose_db_version`, or `none` where the table does not exist. -/
  gooseDBVersion : Option (List VersionRow)
  /-- The names in `schema_migrations`, or `none` where the table does not exist. -/
  schemaMigrations : Option (List String)
  /-- The versions whose `Up` changes are present in the schema. -/
  schema : List Int
  deriving DecidableEq, Repr

namespace Database

/-- Only 001 creates the table `users`, and only its `Down` drops it. -/
def hasUsers (db : Database) : Bool :=
  decide (1 ∈ db.schema)

def rows (db : Database) : List VersionRow :=
  db.gooseDBVersion.getD []

/-- The version is recorded as applied in `goose_db_version`. -/
def Recorded (db : Database) (version : Int) : Prop :=
  VersionRow.mk version true ∈ db.rows

instance (db : Database) (version : Int) : Decidable (db.Recorded version) :=
  inferInstanceAs (Decidable (_ ∈ _))

/-- `SELECT count(*) FROM goose_db_version WHERE version_id > 0 AND is_applied`. -/
def applied (db : Database) : Nat :=
  db.rows.countP fun row => decide (0 < row.versionID) && row.isApplied

end Database

/-! ## Adoption -/

/-- `INSERT … SELECT $1, TRUE WHERE NOT EXISTS (… version_id = $1 AND is_applied)`. -/
def insertVersion (rows : List VersionRow) (version : Int) : List VersionRow :=
  if VersionRow.mk version true ∈ rows then rows else rows ++ [⟨version, true⟩]

/-- The version table the adoption writes to: the existing one, or a new one with goose's row 0. -/
def versionTable (db : Database) : List VersionRow :=
  match db.gooseDBVersion with
  | some rows => rows
  | none => insertVersion [] 0

/-- The loop over the embedded sources. -/
def recordSources (applyAll : Bool) (names : List String) (rows : List VersionRow) :
    List VersionRow :=
  listSources.foldl
    (fun rows source =>
      if !applyAll && !names.contains source.name then rows else insertVersion rows source.version)
    rows

/-- `Migrator.adoptLegacy`, one transaction under the advisory lock. -/
def adoptLegacy (db : Database) : Database :=
  -- already a goose database, or adoption already ran
  if 0 < db.applied then db
  else
    match db.schemaMigrations with
    | none => db
    | some names =>
        let applyAll := names.isEmpty
        if applyAll && !db.hasUsers then db
        else { db with gooseDBVersion := some (recordSources applyAll names (versionTable db)) }

/-! ## goose -/

namespace Provider

/-- goose creates its version table with row 0 before it does anything. -/
def ensureTable (db : Database) : Database :=
  { db with gooseDBVersion := some (db.gooseDBVersion.getD [⟨0, true⟩]) }

/-- One pending version: its `Up` runs and its row is written, in one transaction. -/
def applyPending (db : Database) (source : Source) : Database :=
  if db.Recorded source.version then db
  else
    { db with
      gooseDBVersion := some (db.rows ++ [⟨source.version, true⟩])
      schema := source.version :: db.schema }

/-- goose refuses to apply a version that is missing below a recorded one; here it is applied.  The
results do not depend on it: from their starts the recorded versions are always the first ones. -/
def up (db : Database) : Database :=
  listSources.foldl applyPending (ensureTable db)

/-- The highest applied version, row 0 apart. -/
def current (db : Database) : Option Int :=
  ((db.rows.filter fun row => decide (0 < row.versionID) && row.isApplied).map
    VersionRow.versionID).max?

def revert (db : Database) (version : Int) : Database :=
  { db with
    gooseDBVersion := some (db.rows.filter fun row => row.versionID ≠ version)
    schema := db.schema.filter (· ≠ version) }

/-- With nothing applied goose answers `ErrNoNextVersion`. -/
def down (db : Database) : Database :=
  let db := ensureTable db
  match current db with
  | none => db
  | some version => revert db version

/-- `Status` and `GetVersions`. -/
def inspect (db : Database) : Database :=
  ensureTable db

end Provider

/-! ## The migrator -/

/-- The entry points of `Migrator`. -/
inductive Call where
  | up
  | down
  | status
  | version
  deriving DecidableEq, Repr

/-- What goose does once the adoption has committed. -/
def Call.provider : Call → Database → Database
  | .up => Provider.up
  | .down => Provider.down
  | .status => Provider.inspect
  | .version => Provider.inspect

def Call.perform (call : Call) (db : Database) : Database :=
  call.provider (adoptLegacy db)

def run (db : Database) (calls : List Call) : Database :=
  calls.foldl (fun db call => call.perform db) db

@[simp] theorem run_nil (db : Database) : run db [] = db := rfl

@[simp] theorem run_cons (db : Database) (call : Call) (calls : List Call) :
    run db (call :: calls) = run (call.perform db) calls := rfl

end Migrations
end OrbitAuth
