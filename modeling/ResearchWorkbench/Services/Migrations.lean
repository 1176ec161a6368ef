import Mathlib.Data.List.Lex
import Mathlib.Data.List.Sort
import ResearchWorkbench.Domain.Content
import ResearchWorkbench.Library.Keyed

namespace ResearchWorkbench.Migrations

/-!
# Migrations of the database

`lib/operations/migration-inventory.ts` and `scripts/migrate.ts`.

* `LocalMigration`, `loadLocalMigrations` — the migrations of a release, from its directory;
* `AppliedMigration`, `compareMigrationInventories` — what a database records as applied, and the
  comparison `scripts/doctor.ts` reports;
* `Database` — the table `schema_migrations`, which may not exist yet, and everything else;
* `Phase`, `advance` — one statement of `migrate` after another;
* `State`, `next` — any number of migrate processes on one database, each of which may proceed,
  have a statement fail or crash, under the advisory lock.
-/

/-! ### Inventories -/

/-- A migration of a release: `LocalMigration`. -/
structure LocalMigration where
  name : Text
  sql : Text
  checksum : Text
  deriving DecidableEq

/-- A row of `schema_migrations`: `AppliedMigration`. -/
structure AppliedMigration where
  name : Text
  checksum : Option Text
  deriving DecidableEq

/-- A directory: its files with their contents, each name once. -/
structure Directory where
  files : List (Text × Text)
  names_nodup : (files.map (·.1)).Nodup

/-- `loadLocalMigrations(migrationsDirectory)`, where `sha256` gives the digest of a text in
    hexadecimal; names are sorted by their code units. -/
def loadLocalMigrations (sha256 : Text → Text) (migrationsDirectory : Directory) :
    List LocalMigration :=
  ((migrationsDirectory.files.filter fun file => (asciiText ".sql").isSuffixOf file.1).insertionSort
    fun file file' => file.1 ≤ file'.1).map fun file =>
      { name := file.1, sql := file.2, checksum := sha256 file.2 }

/-- `MigrationInventoryComparison`; `allMatch` is its field `matches`. -/
structure MigrationInventoryComparison where
  allMatch : Bool
  missing : List Text
  unexpected : List Text
  checksumMismatches : List Text
  deriving DecidableEq

/-- `compareMigrationInventories(local, applied)`. -/
def compareMigrationInventories (locals : List LocalMigration)
    (applied : List AppliedMigration) : MigrationInventoryComparison :=
  let missing := (locals.filter fun migration =>
    (lookup AppliedMigration.name applied migration.name).isNone).map (·.name)
  let unexpected := ((applied.filter fun migration =>
    (lookup LocalMigration.name locals migration.name).isNone).map (·.name)).insertionSort
      fun name name' => name ≤ name'
  let checksumMismatches := (locals.filter fun migration =>
    match lookup AppliedMigration.name applied migration.name with
    | none => false
    -- a null checksum is not `undefined`: it counts as a mismatch
    | some stored => decide (stored.checksum ≠ some migration.checksum)).map (·.name)
  { allMatch := missing.length = 0 && unexpected.length = 0 && checksumMismatches.length = 0
    missing
    unexpected
    checksumMismatches }

/-! ### The database -/

/-- The table `schema_migrations`: `name` is its primary key, and without the column `checksum`
    no row has one. -/
structure MigrationsTable where
  rows : List AppliedMigration
  hasChecksum : Bool
  names_nodup : (rows.map (·.name)).Nodup
  null_checksum : hasChecksum = false → ∀ row ∈ rows, row.checksum = none
  deriving DecidableEq

/-- A database: its table of migrations, all that the SQL of migrations reads and changes, and the
    migrations whose SQL took effect since the beginning, in their order (nothing reads them). -/
structure Database (Schema : Type) where
  schemaMigrations : Option MigrationsTable
  schema : Schema
  effects : List LocalMigration
  deriving DecidableEq

/-- The database server: what the SQL of a migration makes of the rest of the database (`none`
    where it fails; the files of a release leave `schema_migrations` and the transaction to the
    runner), and the order of names under the collation. -/
structure Postgres (Schema : Type) where
  execute : Text → Schema → Option Schema
  nameLe : Text → Text → Bool

variable {Schema : Type}

namespace MigrationsTable

/-- The table as `CREATE TABLE` makes it. -/
def empty : MigrationsTable where
  rows := []
  hasChecksum := true
  names_nodup := List.nodup_nil
  null_checksum := fun h => absurd h (by decide)

/-- `ALTER TABLE … ADD COLUMN IF NOT EXISTS checksum`. -/
def addChecksum (table : MigrationsTable) : MigrationsTable where
  rows := table.rows
  hasChecksum := true
  names_nodup := table.names_nodup
  null_checksum := fun h => absurd h (by decide)

/-- A row under `UPDATE … SET checksum = $2 WHERE name = $1 AND checksum IS NULL`. -/
def backfilledRow (name checksum : Text) (row : AppliedMigration) : AppliedMigration :=
  if row.name = name ∧ row.checksum = none then { row with checksum := some checksum } else row

theorem backfilledRow_name (name checksum : Text) (row : AppliedMigration) :
    (backfilledRow name checksum row).name = row.name := by
  rw [backfilledRow, apply_ite AppliedMigration.name, ite_self]

/-- The `UPDATE`, on a table with the column. -/
def backfill (table : MigrationsTable) (name checksum : Text) (h : table.hasChecksum) :
    MigrationsTable where
  rows := table.rows.map (backfilledRow name checksum)
  hasChecksum := table.hasChecksum
  names_nodup := by
    rw [List.map_map]
    exact (List.map_congr_left fun row _ => backfilledRow_name name checksum row) ▸
      table.names_nodup
  null_checksum := fun h' => absurd (h.symm.trans h') (by decide)

/-- `INSERT INTO schema_migrations (name, checksum)` of a name that is not there. -/
def insert (table : MigrationsTable) (row : AppliedMigration)
    (h : table.hasChecksum ∧ row.name ∉ table.rows.map (·.name)) : MigrationsTable where
  rows := table.rows ++ [row]
  hasChecksum := table.hasChecksum
  names_nodup := by
    rw [List.map_append, List.map_singleton]
    exact List.nodup_append.mpr ⟨table.names_nodup, List.nodup_singleton _, fun a ha b hb hab =>
      h.2 (List.mem_singleton.mp hb ▸ hab ▸ ha)⟩
  null_checksum := fun h' => absurd (h.1.symm.trans h') (by decide)

end MigrationsTable

namespace Database

/-- The recorded migrations: none without the table. -/
def records (db : Database Schema) : List AppliedMigration :=
  db.schemaMigrations.elim [] (·.rows)

/-- `CREATE TABLE IF NOT EXISTS schema_migrations`. -/
def createMigrationsTable (db : Database Schema) : Database Schema :=
  { db with schemaMigrations := some (db.schemaMigrations.getD MigrationsTable.empty) }

/-- `ALTER TABLE schema_migrations ADD COLUMN IF NOT EXISTS checksum TEXT`. -/
def addChecksumColumn (db : Database Schema) : Database Schema :=
  { db with schemaMigrations := db.schemaMigrations.map MigrationsTable.addChecksum }

/-- `SELECT name FROM schema_migrations ORDER BY name`; `none` is an error. -/
def selectNames (pg : Postgres Schema) (db : Database Schema) : Option (List Text) :=
  db.schemaMigrations.map fun table => (table.rows.map (·.name)).insertionSort
    fun name name' => pg.nameLe name name'

/-- `SELECT checksum FROM schema_migrations WHERE name = $1`; the outer `none` is an error. -/
def selectChecksum (db : Database Schema) (name : Text) : Option (Option AppliedMigration) :=
  match db.schemaMigrations with
  | none => none
  | some table =>
    if table.hasChecksum then some (table.rows.find? fun row => row.name = name) else none

/-- `UPDATE schema_migrations SET checksum = $2 WHERE name = $1 AND checksum IS NULL`. -/
def backfill (db : Database Schema) (name checksum : Text) : Option (Database Schema) :=
  match db.schemaMigrations with
  | none => none
  | some table =>
    if h : table.hasChecksum then
      some { db with schemaMigrations := some (table.backfill name checksum h) }
    else none

/-- `client.query(sql)`. -/
def execute (pg : Postgres Schema) (db : Database Schema) (migration : LocalMigration) :
    Option (Database Schema) :=
  (pg.execute migration.sql db.schema).map fun schema =>
    { db with schema, effects := db.effects ++ [migration] }

/-- `INSERT INTO schema_migrations (name, checksum) VALUES ($1, $2)`. -/
def insert (db : Database Schema) (migration : LocalMigration) : Option (Database Schema) :=
  match db.schemaMigrations with
  | none => none
  | some table =>
    if h : table.hasChecksum ∧ migration.name ∉ table.rows.map (·.name) then
      let table' := table.insert { name := migration.name, checksum := some migration.checksum } h
      some { db with schemaMigrations := some table' }
    else none

end Database

/-! ### One migrate process -/

/-- How a run of `migrate` ends. -/
inductive Outcome where
  | succeeded
  | unknownApplied (names : List Text)
  | checksumDiffers (name : Text)
  | failed
  | crashed
  deriving DecidableEq

/-- The run was refused: the two errors `migrate` throws itself. -/
def Outcome.IsRefusal : Outcome → Prop
  | .unknownApplied _ => True
  | .checksumDiffers _ => True
  | _ => False

/-- The statement of `migrate` a process takes next. -/
inductive Phase (Schema : Type) where
  /-- `SELECT pg_advisory_lock(735721)`. -/
  | locking
  | creating
  | altering
  | readingApplied
  /-- The head of the loop, with the migrations that are left. -/
  | migrating (todo : List LocalMigration)
  | backfilling (migration : LocalMigration) (todo : List LocalMigration)
  | beginning (migration : LocalMigration) (todo : List LocalMigration)
  /-- In the transaction; `view` is the database with what the transaction did so far. -/
  | executing (view : Database Schema) (migration : LocalMigration) (todo : List LocalMigration)
  | inserting (view : Database Schema) (migration : LocalMigration) (todo : List LocalMigration)
  | committing (view : Database Schema) (migration : LocalMigration) (todo : List LocalMigration)
  | rollingBack
  /-- `SELECT pg_advisory_unlock(735721)`, with how the run ends. -/
  | unlocking (outcome : Outcome)
  | ended (outcome : Outcome)
  deriving DecidableEq

/-- The recorded checksum is neither null nor empty, and it is another one. -/
def AppliedMigration.Differs (row : AppliedMigration) (migration : LocalMigration) : Prop :=
  row.checksum.getD [] ≠ [] ∧ row.checksum ≠ some migration.checksum

instance (row : AppliedMigration) (migration : LocalMigration) :
    Decidable (row.Differs migration) :=
  inferInstanceAs (Decidable (_ ∧ _))

/-- `migrate()` with its lock: one statement on the database, and the phase it leads to. -/
def advance (pg : Postgres Schema) (migrations : List LocalMigration) (db : Database Schema) :
    Phase Schema → Phase Schema × Database Schema
  | .creating => (.altering, db.createMigrationsTable)
  | .altering => (.readingApplied, db.addChecksumColumn)
  | .readingApplied =>
    match db.selectNames pg with
    | none => (.unlocking .failed, db)
    | some names =>
      let unknownApplied := names.filter fun name => name ∉ migrations.map (·.name)
      if unknownApplied.length > 0 then (.unlocking (.unknownApplied unknownApplied), db)
      else (.migrating migrations, db)
  | .migrating [] => (.unlocking .succeeded, db)
  | .migrating (migration :: todo) =>
    match db.selectChecksum migration.name with
    | none => (.unlocking .failed, db)
    | some (some existing) =>
      if existing.Differs migration then (.unlocking (.checksumDiffers migration.name), db)
      -- `!existing.rows[0].checksum`: null or the empty string
      else if existing.checksum.getD [] = [] then (.backfilling migration todo, db)
      else (.migrating todo, db)
    | some none => (.beginning migration todo, db)
  | .backfilling migration todo =>
    match db.backfill migration.name migration.checksum with
    | none => (.unlocking .failed, db)
    | some db' => (.migrating todo, db')
  | .beginning migration todo => (.executing db migration todo, db)
  | .executing view migration todo =>
    match view.execute pg migration with
    | none => (.rollingBack, db)
    | some view' => (.inserting view' migration todo, db)
  | .inserting view migration todo =>
    match view.insert migration with
    | none => (.rollingBack, db)
    | some view' => (.committing view' migration todo, db)
  | .committing view _ todo => (.migrating todo, view)
  | .rollingBack => (.unlocking .failed, db)
  | .locking => (.locking, db)
  | .unlocking outcome => (.unlocking outcome, db)
  | .ended outcome => (.ended outcome, db)

/-- The phase after a statement that fails: the `catch` of the transaction rolls back, every other
    error goes to `finally`. -/
def failing : Phase Schema → Phase Schema
  | .beginning _ _ => .rollingBack
  | .executing _ _ _ => .rollingBack
  | .inserting _ _ _ => .rollingBack
  | .committing _ _ _ => .rollingBack
  | _ => .unlocking .failed

/-! ### The system -/

/-- A migrate process: the migrations of its release and where it is; `before` and `after` are the
    database as it took and as it gave up the lock (no step reads them). -/
structure Process (Schema : Type) where
  migrations : List LocalMigration
  phase : Phase Schema
  before : Option (Database Schema)
  after : Option (Database Schema)

/-- The processes, the holder of the advisory lock, and the database as committed. -/
structure State (ι Schema : Type) where
  processes : ι → Process Schema
  lock : Option ι
  database : Database Schema

/-- What can happen: a process takes its next statement, the statement fails, or the process or
    its session ends. -/
inductive Action (ι : Type) where
  | proceed (i : ι)
  | fail (i : ι)
  | crash (i : ι)
  deriving DecidableEq

variable {ι : Type} [DecidableEq ι]

namespace State

/-- Process `i` with another phase. -/
def setProcess (s : State ι Schema) (i : ι) (process : Process Schema) : State ι Schema :=
  { s with processes := Function.update s.processes i process }

/-- Process `i` is through: its session ends, with it the lock it holds and the transaction. -/
def release (s : State ι Schema) (i : ι) (outcome : Outcome) : State ι Schema :=
  { s with
    processes := Function.update s.processes i
      { s.processes i with phase := .ended outcome, after := some s.database }
    lock := none }

/-- Process `i` ends without the lock. -/
def abandon (s : State ι Schema) (i : ι) (outcome : Outcome) : State ι Schema :=
  s.setProcess i { s.processes i with phase := .ended outcome }

end State

/-- What an action makes of the state. -/
def next (pg : Postgres Schema) (s : State ι Schema) : Action ι → State ι Schema
  | .proceed i =>
    match (s.processes i).phase with
    | .locking =>
      -- the statement waits as long as another session has the lock
      if s.lock = none then
        { s.setProcess i { s.processes i with phase := .creating, before := some s.database } with
          lock := some i }
      else s
    | .unlocking outcome => s.release i outcome
    | .ended _ => s
    | phase =>
      let (phase', db) := advance pg (s.processes i).migrations s.database phase
      { s.setProcess i { s.processes i with phase := phase' } with database := db }
  | .fail i =>
    match (s.processes i).phase with
    | .locking => s.abandon i .failed
    | .unlocking _ => s.release i .failed
    | .ended _ => s
    | phase => s.setProcess i { s.processes i with phase := failing phase }
  | .crash i =>
    match (s.processes i).phase with
    | .locking => s.abandon i .crashed
    | .ended _ => s
    | _ => s.release i .crashed

/-- Every process has loaded its release and done nothing else. -/
structure State.Initial (sha256 : Text → Text) (s : State ι Schema) : Prop where
  loaded : ∀ i, ∃ migrationsDirectory,
    (s.processes i).migrations = loadLocalMigrations sha256 migrationsDirectory
  locking : ∀ i, (s.processes i).phase = .locking
  not_begun : ∀ i, (s.processes i).before = none
  unlocked : s.lock = none
  no_effects : s.database.effects = []

end ResearchWorkbench.Migrations
