import ResearchWorkbench.Services.Migrations

namespace ResearchWorkbench.Migrations

/-!
# What one run of the migrations does

* `compare_allMatch_iff` — the comparison of inventories: every local migration is recorded with
  its checksum, and no other name is;
* `Database.…_eq_some` — what each statement on the database changes;
* `applyFrom`, `rest`, `rest_advance` — what is left of a run, and that a statement of `migrate`
  takes its own part of it only;
* `applyFrom_succeeded`, `applyFrom_refused`, `applyFrom_of_recorded` — the loop where it
  ends, where it is refused, and where nothing is left to do.
-/

variable {Schema : Type} {pg : Postgres Schema} {db db' : Database Schema}
  {migrations todo : List LocalMigration} {migration : LocalMigration}

/-! ### Inventories -/

/-- The names of a release come from a directory: each is there once. -/
theorem names_loadLocalMigrations (sha256 : Text → Text) (migrationsDirectory : Directory) :
    ((loadLocalMigrations sha256 migrationsDirectory).map (·.name)).Nodup := by
  simp only [loadLocalMigrations, List.map_map]
  refine (((List.perm_insertionSort _ _).map _).nodup_iff).mpr ?_
  exact migrationsDirectory.names_nodup.sublist (List.filter_sublist.map _)

theorem isNone_lookup_iff {α : Type} {key : α → Text} {items : List α} {name : Text} :
    (lookup key items name).isNone ↔ name ∉ items.map key := by
  rw [Option.isNone_iff_eq_none, lookup_eq_none_iff, List.mem_map]
  exact ⟨fun h ⟨a, ha, hkey⟩ => h a ha hkey, fun h a ha hkey => h ⟨a, ha, hkey⟩⟩

/-- The row of a migration that is recorded as the release has it. -/
def LocalMigration.row (migration : LocalMigration) : AppliedMigration :=
  { name := migration.name, checksum := some migration.checksum }

/-- **The comparison of inventories**, for names that occur once: each local migration has its row
    with its checksum, and there is no other name. -/
theorem compare_allMatch_iff {applied : List AppliedMigration}
    (happlied : (applied.map (·.name)).Nodup) :
    (compareMigrationInventories migrations applied).allMatch = true ↔
      (∀ migration ∈ migrations, migration.row ∈ applied) ∧
        ∀ row ∈ applied, row.name ∈ migrations.map (·.name) := by
  simp only [compareMigrationInventories, List.length_map, List.length_insertionSort,
    Bool.and_eq_true, decide_eq_true_eq, List.length_eq_zero_iff, List.filter_eq_nil_iff,
    isNone_lookup_iff, not_not]
  constructor
  · rintro ⟨⟨hmissing, hunexpected⟩, hchecksums⟩
    refine ⟨fun migration hmem => ?_, hunexpected⟩
    obtain ⟨row, hrow, hname⟩ := List.mem_map.mp (hmissing migration hmem)
    have hfound := (lookup_eq_some_iff happlied).mpr ⟨hrow, hname⟩
    have hchecksum := hchecksums migration hmem
    simp only [hfound, decide_eq_true_eq, not_not] at hchecksum
    have heq : row = migration.row := by
      rw [LocalMigration.row, ← hname, ← hchecksum]
    exact heq ▸ hrow
  · rintro ⟨hrows, hnames⟩
    refine ⟨⟨fun migration hmem => ?_, hnames⟩, fun migration hmem => ?_⟩
    · exact List.mem_map.mpr ⟨_, hrows migration hmem, rfl⟩
    · have hfound : lookup AppliedMigration.name applied migration.name = some migration.row :=
        (lookup_eq_some_iff happlied).mpr ⟨hrows migration hmem, rfl⟩
      simp [hfound, LocalMigration.row]

/-! ### Statements -/

namespace Database

/-- The table is there, with its column `checksum`. -/
def Ready (db : Database Schema) : Prop :=
  ∃ table, db.schemaMigrations = some table ∧ table.hasChecksum = true

/-- Nothing is recorded and nothing took effect between two databases. -/
structure Unchanged (db db' : Database Schema) : Prop where
  records : db'.records = db.records
  effects : db'.effects = db.effects

theorem Unchanged.refl (db : Database Schema) : db.Unchanged db := ⟨rfl, rfl⟩

theorem Unchanged.trans {db'' : Database Schema} (h : db.Unchanged db')
    (h' : db'.Unchanged db'') : db.Unchanged db'' :=
  ⟨h'.records.trans h.records, h'.effects.trans h.effects⟩

theorem names_nodup (db : Database Schema) : (db.records.map (·.name)).Nodup := by
  rw [records]
  cases db.schemaMigrations with
  | none => exact List.nodup_nil
  | some table => exact table.names_nodup

/-- Rows of one name are one row. -/
theorem row_unique {row row' : AppliedMigration} (hrow : row ∈ db.records)
    (hrow' : row' ∈ db.records) (hname : row.name = row'.name) : row = row' :=
  List.inj_on_of_nodup_map db.names_nodup hrow hrow' hname

theorem unchanged_created (db : Database Schema) : db.Unchanged db.createMigrationsTable := by
  refine ⟨?_, rfl⟩
  simp only [records, createMigrationsTable]
  cases db.schemaMigrations <;> rfl

theorem unchanged_altered (db : Database Schema) : db.Unchanged db.addChecksumColumn := by
  refine ⟨?_, rfl⟩
  simp only [records, addChecksumColumn]
  cases db.schemaMigrations <;> rfl

/-- The first two statements make the table ready. -/
theorem ready_altered (db : Database Schema) : db.createMigrationsTable.addChecksumColumn.Ready :=
  ⟨_, rfl, rfl⟩

theorem selectNames_eq_some {names : List Text} (h : db.selectNames pg = some names) :
    ∀ name, name ∈ names ↔ name ∈ db.records.map (·.name) := by
  intro name
  simp only [selectNames, Option.map_eq_some_iff] at h
  obtain ⟨table, htable, rfl⟩ := h
  rw [List.mem_insertionSort, records, htable]
  exact Iff.rfl

theorem selectNames_of_ready (pg : Postgres Schema) (h : db.Ready) : ∃ names, db.selectNames pg = some names := by
  obtain ⟨table, htable, -⟩ := h
  exact ⟨_, by rw [selectNames, htable]; rfl⟩

theorem selectChecksum_eq_some {name : Text} {existing : Option AppliedMigration}
    (h : db.selectChecksum name = some existing) :
    existing = db.records.find? (fun row => row.name = name) := by
  simp only [selectChecksum] at h
  split at h
  · cases h
  · next table htable =>
    split at h
    · rw [records, htable]
      exact (Option.some.inj h).symm
    · cases h

theorem selectChecksum_of_ready (h : db.Ready) (name : Text) :
    db.selectChecksum name = some (db.records.find? fun row => row.name = name) := by
  obtain ⟨table, htable, hcolumn⟩ := h
  simp only [selectChecksum, records, htable, hcolumn, if_true, Option.elim_some]

/-- The row that a name selects. -/
theorem selectChecksum_row {name : Text} {existing : AppliedMigration}
    (h : db.selectChecksum name = some (some existing)) :
    existing ∈ db.records ∧ existing.name = name := by
  have hfind := (selectChecksum_eq_some h).symm
  exact ⟨List.mem_of_find?_eq_some hfind, by simpa using List.find?_some hfind⟩

/-- The `UPDATE` changes the rows it selects and nothing else. -/
theorem backfill_eq_some {name checksum : Text} (h : db.backfill name checksum = some db') :
    db'.records = db.records.map (MigrationsTable.backfilledRow name checksum) ∧
      db'.effects = db.effects ∧ db'.schema = db.schema ∧ db'.Ready := by
  simp only [backfill] at h
  split at h
  · cases h
  · next table htable =>
    split at h
    · next hcolumn =>
      obtain rfl := Option.some.inj h
      exact ⟨by rw [records, records, htable]; rfl, rfl, rfl, _, rfl, hcolumn⟩
    · cases h

theorem backfill_of_ready (h : db.Ready) (name checksum : Text) :
    ∃ db', db.backfill name checksum = some db' := by
  obtain ⟨table, htable, hcolumn⟩ := h
  simp only [backfill, htable, hcolumn, dif_pos]
  exact ⟨_, rfl⟩

/-- The SQL of a migration takes effect, and the records stay. -/
theorem execute_eq_some (h : db.execute pg migration = some db') :
    pg.execute migration.sql db.schema = some db'.schema ∧
      db'.effects = db.effects ++ [migration] ∧
      db'.schemaMigrations = db.schemaMigrations := by
  simp only [execute, Option.map_eq_some_iff] at h
  obtain ⟨schema, hschema, rfl⟩ := h
  exact ⟨hschema, rfl, rfl⟩

/-- The `INSERT` adds a row of a new name. -/
theorem insert_eq_some (h : db.insert migration = some db') :
    db'.records = db.records ++ [migration.row] ∧
      migration.name ∉ db.records.map (·.name) ∧ db'.effects = db.effects ∧
      db'.schema = db.schema ∧ db'.Ready := by
  simp only [insert] at h
  split at h
  · cases h
  · next table htable =>
    split at h
    · next hrow =>
      obtain rfl := Option.some.inj h
      refine ⟨by rw [records, records, htable]; rfl, ?_, rfl, rfl, _, rfl, hrow.1⟩
      rw [records, htable]
      exact hrow.2
    · cases h

/-- A migration applied in its transaction: its SQL and its record at once. -/
def applyOne (pg : Postgres Schema) (db : Database Schema) (migration : LocalMigration) :
    Option (Database Schema) :=
  (db.execute pg migration).bind fun view => view.insert migration

theorem applyOne_eq_some (h : db.applyOne pg migration = some db') :
    db'.records = db.records ++ [migration.row] ∧
      migration.name ∉ db.records.map (·.name) ∧ db'.effects = db.effects ++ [migration] ∧
      pg.execute migration.sql db.schema = some db'.schema ∧ db'.Ready := by
  obtain ⟨view, hview, hinsert⟩ := Option.bind_eq_some_iff.mp h
  obtain ⟨hschema, heffects, htable⟩ := execute_eq_some hview
  obtain ⟨hrecords, hname, heffects', hschema', hready⟩ := insert_eq_some hinsert
  have hsame : view.records = db.records := by rw [records, records, htable]
  rw [hsame] at hrecords hname
  exact ⟨hrecords, hname, heffects'.trans heffects, hschema' ▸ hschema, hready⟩

end Database

/-! ### What is left of a run -/

/-- The loop over the migrations that are left: how the run ends, and the database then. -/
def applyFrom (pg : Postgres Schema) :
    List LocalMigration → Database Schema → Outcome × Database Schema
  | [], db => (.succeeded, db)
  | migration :: todo, db =>
    match db.selectChecksum migration.name with
    | none => (.failed, db)
    | some (some existing) =>
      if existing.Differs migration then (.checksumDiffers migration.name, db)
      else if existing.checksum.getD [] = [] then
        match db.backfill migration.name migration.checksum with
        | none => (.failed, db)
        | some db' => applyFrom pg todo db'
      else applyFrom pg todo db
    | some none =>
      match db.applyOne pg migration with
      | none => (.failed, db)
      | some db' => applyFrom pg todo db'

/-- The run from its look at the names of the applied migrations on. -/
def verifyAndApply (pg : Postgres Schema) (migrations : List LocalMigration)
    (db : Database Schema) : Outcome × Database Schema :=
  match db.selectNames pg with
  | none => (.failed, db)
  | some names =>
    let unknownApplied := names.filter fun name => name ∉ migrations.map (·.name)
    if unknownApplied.length > 0 then (.unknownApplied unknownApplied, db)
    else applyFrom pg migrations db

/-- What is left of a run in a phase, where no statement is interrupted. -/
def rest (pg : Postgres Schema) (migrations : List LocalMigration) (db : Database Schema) :
    Phase Schema → Outcome × Database Schema
  | .locking => verifyAndApply pg migrations db.createMigrationsTable.addChecksumColumn
  | .creating => verifyAndApply pg migrations db.createMigrationsTable.addChecksumColumn
  | .altering => verifyAndApply pg migrations db.addChecksumColumn
  | .readingApplied => verifyAndApply pg migrations db
  | .migrating todo => applyFrom pg todo db
  | .backfilling migration todo =>
    match db.backfill migration.name migration.checksum with
    | none => (.failed, db)
    | some db' => applyFrom pg todo db'
  | .beginning migration todo =>
    match db.applyOne pg migration with
    | none => (.failed, db)
    | some db' => applyFrom pg todo db'
  | .executing view migration todo =>
    match view.applyOne pg migration with
    | none => (.failed, db)
    | some db' => applyFrom pg todo db'
  | .inserting view migration todo =>
    match view.insert migration with
    | none => (.failed, db)
    | some db' => applyFrom pg todo db'
  | .committing view _ todo => applyFrom pg todo view
  | .rollingBack => (.failed, db)
  | .unlocking outcome => (outcome, db)
  | .ended outcome => (outcome, db)

/-- The whole of a run, under the lock. -/
def migrate (pg : Postgres Schema) (migrations : List LocalMigration) (db : Database Schema) :
    Outcome × Database Schema :=
  rest pg migrations db .creating

/-- **A statement does its part.**  What is left of the run after a statement of `migrate`, on the
    database as the statement leaves it, comes to what was left before. -/
theorem rest_advance (pg : Postgres Schema) (migrations : List LocalMigration)
    (db : Database Schema) (phase : Phase Schema) :
    rest pg migrations (advance pg migrations db phase).2 (advance pg migrations db phase).1 =
      rest pg migrations db phase := by
  cases phase with
  | readingApplied =>
    simp only [advance, rest, verifyAndApply]
    cases db.selectNames pg with
    | none => rfl
    | some names =>
      by_cases hunknown : (names.filter fun name => name ∉ migrations.map (·.name)).length > 0
      · simp only [if_pos hunknown]
      · simp only [if_neg hunknown]
  | migrating todo =>
    cases todo with
    | nil => rfl
    | cons migration todo =>
      simp only [advance, rest, applyFrom]
      rcases db.selectChecksum migration.name with _ | _ | existing
      · rfl
      · rfl
      · by_cases hdiffers : existing.Differs migration
        · simp only [if_pos hdiffers]
        · by_cases hempty : existing.checksum.getD [] = []
          · simp only [if_neg hdiffers, if_pos hempty]
          · simp only [if_neg hdiffers, if_neg hempty]
  | backfilling migration todo =>
    simp only [advance, rest]
    cases hbackfill : db.backfill migration.name migration.checksum <;> rfl
  | executing view migration todo =>
    simp only [advance, rest, Database.applyOne]
    cases hexecute : view.execute pg migration <;> rfl
  | inserting view migration todo =>
    simp only [advance, rest]
    cases hinsert : view.insert migration <;> rfl
  | _ => rfl

/-! ### One turn of the loop -/

/-- A row is recorded whose checksum is another one than the migration has. -/
def DiffersIn (records : List AppliedMigration) (migration : LocalMigration) : Prop :=
  ∃ row ∈ records, row.name = migration.name ∧ row.Differs migration

/-- The migration is recorded with a checksum. -/
def RecordedIn (records : List AppliedMigration) (migration : LocalMigration) : Prop :=
  ∃ row ∈ records, row.name = migration.name ∧ row.checksum ≠ none

instance (records : List AppliedMigration) : DecidablePred (DiffersIn records) := fun _ =>
  inferInstanceAs (Decidable (∃ row ∈ records, _))

instance (records : List AppliedMigration) : DecidablePred (RecordedIn records) := fun _ =>
  inferInstanceAs (Decidable (∃ row ∈ records, _))

/-- What a turn that the loop goes on after does with its migration: the migration is recorded
    already, or its checksum is filled in, or it is applied. -/
inductive Handled (pg : Postgres Schema) (migration : LocalMigration) (db : Database Schema) :
    Database Schema → Prop where
  | recorded (h : migration.row ∈ db.records) : Handled pg migration db db
  | backfilled {row : AppliedMigration} {db' : Database Schema} (hrow : row ∈ db.records)
      (hname : row.name = migration.name) (hempty : row.checksum.getD [] = [])
      (h : db.backfill migration.name migration.checksum = some db') :
      Handled pg migration db db'
  | applied {db' : Database Schema} (h : db.applyOne pg migration = some db') :
      Handled pg migration db db'

/-- The run ends with the turn of a migration: a statement fails, or the checksum differs. -/
inductive Stopped (migration : LocalMigration) (db : Database Schema) : Outcome → Prop where
  | failed : Stopped migration db .failed
  | differs (h : DiffersIn db.records migration) :
      Stopped migration db (.checksumDiffers migration.name)

/-- **One turn of the loop.** -/
theorem applyFrom_cons (pg : Postgres Schema) (migration : LocalMigration)
    (todo : List LocalMigration) (db : Database Schema) :
    (∃ outcome, Stopped migration db outcome ∧
      applyFrom pg (migration :: todo) db = (outcome, db)) ∨
    ∃ db', Handled pg migration db db' ∧
      applyFrom pg (migration :: todo) db = applyFrom pg todo db' := by
  rw [applyFrom]
  cases hselect : db.selectChecksum migration.name with
  | none => exact .inl ⟨_, .failed, rfl⟩
  | some existing =>
    cases existing with
    | none =>
      cases happly : db.applyOne pg migration with
      | none => exact .inl ⟨_, .failed, rfl⟩
      | some db' => exact .inr ⟨db', .applied happly, rfl⟩
    | some existing =>
      obtain ⟨hrow, hname⟩ := Database.selectChecksum_row hselect
      by_cases hdiffers : existing.Differs migration
      · exact .inl ⟨_, .differs ⟨existing, hrow, hname, hdiffers⟩, by simp only [if_pos hdiffers]⟩
      · by_cases hempty : existing.checksum.getD [] = []
        · simp only [if_neg hdiffers, if_pos hempty]
          cases hbackfill : db.backfill migration.name migration.checksum with
          | none => exact .inl ⟨_, .failed, rfl⟩
          | some db' => exact .inr ⟨db', .backfilled hrow hname hempty hbackfill, rfl⟩
        · simp only [if_neg hdiffers, if_neg hempty]
          -- neither another checksum nor none: it is the migration's own
          have hchecksum : existing.checksum = some migration.checksum := by
            by_contra hne
            exact hdiffers ⟨hempty, hne⟩
          have heq : existing = migration.row := by
            rw [LocalMigration.row, ← hname, ← hchecksum]
          exact .inr ⟨db, .recorded (heq ▸ hrow), rfl⟩

/-- How the records of two databases differ after migrations: rows with a checksum stay, and every
    row is an old one or the one of such a migration. -/
structure Progress (migrations : List LocalMigration) (records records' : List AppliedMigration) :
    Prop where
  kept : ∀ row ∈ records, row.checksum ≠ none → row ∈ records'
  origin : ∀ row ∈ records', row ∈ records ∨ ∃ migration ∈ migrations, row = migration.row

theorem Progress.refl (migrations : List LocalMigration) (records : List AppliedMigration) :
    Progress migrations records records :=
  ⟨fun _ hrow _ => hrow, fun _ hrow => .inl hrow⟩

theorem Progress.trans {migrations' : List LocalMigration}
    {records records' records'' : List AppliedMigration}
    (h : Progress migrations records records') (h' : Progress migrations' records' records'') :
    Progress (migrations ++ migrations') records records'' := by
  refine ⟨fun row hrow hnull => h'.kept row (h.kept row hrow hnull) hnull, fun row hrow => ?_⟩
  rcases h'.origin row hrow with hold | ⟨migration, hmem, rfl⟩
  · rcases h.origin row hold with hold | ⟨migration, hmem, rfl⟩
    · exact .inl hold
    · exact .inr ⟨migration, List.mem_append_left _ hmem, rfl⟩
  · exact .inr ⟨migration, List.mem_append_right _ hmem, rfl⟩

theorem Progress.differsIn {records records' : List AppliedMigration}
    (h : Progress migrations records records') (hdiffers : DiffersIn records migration) :
    DiffersIn records' migration := by
  obtain ⟨row, hrow, hname, hne, hother⟩ := hdiffers
  refine ⟨row, h.kept row hrow ?_, hname, hne, hother⟩
  intro hnull
  rw [hnull] at hne
  exact hne rfl

/-- What differs after other migrations did so before. -/
theorem Progress.differsIn_of {records records' : List AppliedMigration}
    (h : Progress [migration] records records') {migration' : LocalMigration}
    (hother : migration'.name ≠ migration.name) (hdiffers : DiffersIn records' migration') :
    DiffersIn records migration' := by
  obtain ⟨row, hrow, hname, hrowDiffers⟩ := hdiffers
  rcases h.origin row hrow with hold | ⟨migration'', hmem, rfl⟩
  · exact ⟨row, hold, hname, hrowDiffers⟩
  · rw [List.mem_singleton] at hmem
    subst hmem
    exact absurd hname.symm hother

theorem backfilledRow_of_checksum {name checksum : Text} {row : AppliedMigration}
    (h : row.checksum ≠ none) : MigrationsTable.backfilledRow name checksum row = row :=
  if_neg fun hrow => h hrow.2

theorem Handled.progress (h : Handled pg migration db db') :
    Progress [migration] db.records db'.records := by
  cases h with
  | recorded _ => exact .refl _ _
  | backfilled hrow hname hempty h =>
    rw [(Database.backfill_eq_some h).1]
    refine ⟨fun row hrow hnull => ?_, fun row hrow => ?_⟩
    · exact List.mem_map.mpr ⟨row, hrow, backfilledRow_of_checksum hnull⟩
    · obtain ⟨old, hold, rfl⟩ := List.mem_map.mp hrow
      rw [MigrationsTable.backfilledRow]
      split
      · next hselected =>
        refine .inr ⟨migration, List.mem_singleton_self _, ?_⟩
        rw [LocalMigration.row, hselected.1]
      · exact .inl hold
  | applied h =>
    rw [(Database.applyOne_eq_some h).1]
    refine ⟨fun row hrow _ => List.mem_append_left _ hrow, fun row hrow => ?_⟩
    rcases List.mem_append.mp hrow with hold | hnew
    · exact .inl hold
    · exact .inr ⟨migration, List.mem_singleton_self _, List.mem_singleton.mp hnew⟩

/-- After its turn a migration is recorded, with its checksum or with the empty one. -/
theorem Handled.row (h : Handled pg migration db db') :
    ∃ row ∈ db'.records, row.name = migration.name ∧
      (row.checksum = some migration.checksum ∨ row.checksum = some []) := by
  cases h with
  | recorded h => exact ⟨_, h, rfl, .inl rfl⟩
  | @backfilled row db' hrow hname hempty h =>
    rw [(Database.backfill_eq_some h).1]
    refine ⟨_, List.mem_map.mpr ⟨row, hrow, rfl⟩, ?_, ?_⟩
    · rw [MigrationsTable.backfilledRow_name, hname]
    · cases hchecksum : row.checksum with
      | none =>
        rw [MigrationsTable.backfilledRow, if_pos ⟨hname, hchecksum⟩]
        exact .inl rfl
      | some checksum =>
        rw [backfilledRow_of_checksum (by rw [hchecksum]; exact Option.some_ne_none _), hchecksum]
        rw [hchecksum, Option.getD_some] at hempty
        exact .inr (by rw [hempty])
  | applied h =>
    rw [(Database.applyOne_eq_some h).1]
    exact ⟨_, List.mem_append_right _ (List.mem_singleton_self _), rfl, .inl rfl⟩

/-- A migration the loop goes on after does not differ. -/
theorem Handled.not_differsIn (h : Handled pg migration db db') :
    ¬ DiffersIn db.records migration := by
  rintro ⟨row, hrow, hname, hne, hother⟩
  cases h with
  | recorded h => exact hother (by rw [Database.row_unique hrow h hname]; rfl)
  | backfilled hrow' hname' hempty h =>
    rw [Database.row_unique hrow hrow' (hname.trans hname'.symm)] at hne
    exact hne hempty
  | applied h =>
    exact (Database.applyOne_eq_some h).2.1 (List.mem_map.mpr ⟨row, hrow, hname⟩)

/-- A turn leaves everything as it was, or the migration had no checksum recorded. -/
theorem Handled.unchanged_or (h : Handled pg migration db db') :
    db.Unchanged db' ∧ RecordedIn db.records migration ∨ ¬ RecordedIn db.records migration := by
  cases h with
  | recorded h => exact .inl ⟨.refl db, _, h, rfl, Option.some_ne_none _⟩
  | @backfilled row db' hrow hname hempty h =>
    by_cases hnull : row.checksum = none
    · refine .inr ?_
      rintro ⟨row', hrow', hname', hnull'⟩
      rw [Database.row_unique hrow' hrow (hname'.trans hname.symm)] at hnull'
      exact hnull' hnull
    · obtain ⟨hrecords, heffects, -⟩ := Database.backfill_eq_some h
      refine .inl ⟨⟨?_, heffects⟩, row, hrow, hname, hnull⟩
      rw [hrecords]
      refine (List.map_congr_left fun row' hrow' => ?_).trans (List.map_id' _)
      refine if_neg fun hselected => hnull ?_
      rw [← Database.row_unique hrow' hrow (hselected.1.trans hname.symm)]
      exact hselected.2
  | applied h =>
    refine .inr ?_
    rintro ⟨row, hrow, hname, -⟩
    exact (Database.applyOne_eq_some h).2.1 (List.mem_map.mpr ⟨row, hrow, hname⟩)

/-! ### The loop -/

theorem applyFrom_progress (pg : Postgres Schema) (todo : List LocalMigration)
    (db : Database Schema) : Progress todo db.records (applyFrom pg todo db).2.records := by
  induction todo generalizing db with
  | nil => exact .refl _ _
  | cons migration todo ih =>
    rcases applyFrom_cons pg migration todo db with ⟨outcome, -, heq⟩ | ⟨db', hturn, heq⟩
    · rw [heq]
      exact .refl _ _
    · rw [heq]
      exact hturn.progress.trans (ih db')

/-- Where the loop ends, every migration is recorded, with its checksum or with the empty one, and
    none differed. -/
theorem applyFrom_succeeded (h : (applyFrom pg todo db).1 = .succeeded) :
    ∀ migration ∈ todo, ¬ DiffersIn db.records migration ∧
      ∃ row ∈ (applyFrom pg todo db).2.records, row.name = migration.name ∧
        (row.checksum = some migration.checksum ∨ row.checksum = some []) := by
  induction todo generalizing db with
  | nil => exact fun _ hmem => absurd hmem List.not_mem_nil
  | cons migration todo ih =>
    rcases applyFrom_cons pg migration todo db with ⟨outcome, hstop, heq⟩ | ⟨db', hturn, heq⟩
    · rw [heq] at h
      cases hstop <;> cases h
    · rw [heq] at h ⊢
      intro migration' hmem
      rcases List.mem_cons.mp hmem with rfl | hmem
      · obtain ⟨row, hrow, hname, hchecksum⟩ := hturn.row
        refine ⟨hturn.not_differsIn, row, (applyFrom_progress pg todo db').kept row hrow ?_, hname,
          hchecksum⟩
        rcases hchecksum with hchecksum | hchecksum <;> rw [hchecksum] <;>
          exact Option.some_ne_none _
      · obtain ⟨hsame, hrow⟩ := ih h migration' hmem
        exact ⟨fun hdiffers => hsame (hturn.progress.differsIn hdiffers), hrow⟩

/-- Where the loop is refused, a recorded checksum differed from the start. -/
theorem exists_differsIn (hnames : (todo.map (·.name)).Nodup)
    (h : (applyFrom pg todo db).1.IsRefusal) :
    ∃ migration ∈ todo, DiffersIn db.records migration := by
  induction todo generalizing db with
  | nil => exact absurd h id
  | cons migration todo ih =>
    rcases applyFrom_cons pg migration todo db with ⟨outcome, hstop, heq⟩ | ⟨db', hturn, heq⟩
    · rw [heq] at h
      cases hstop with
      | failed => exact absurd h id
      | differs hdiffers => exact ⟨migration, List.mem_cons_self, hdiffers⟩
    · rw [heq] at h
      rw [List.map_cons, List.nodup_cons] at hnames
      obtain ⟨migration', hmem, hdiffers⟩ := ih hnames.2 h
      refine ⟨migration', List.mem_cons_of_mem _ hmem, hturn.progress.differsIn_of ?_ hdiffers⟩
      exact fun hname => hnames.1 (hname ▸ List.mem_map.mpr ⟨migration', hmem, rfl⟩)

/-- If a recorded checksum differs, every migration before the first such one is recorded with a
    checksum. -/
def VerifiedFirst (migrations : List LocalMigration) (records : List AppliedMigration) : Prop :=
  (∃ migration ∈ migrations, DiffersIn records migration) →
    ∀ migration ∈ migrations.takeWhile fun migration => ¬ DiffersIn records migration,
      RecordedIn records migration

instance (migrations : List LocalMigration) (records : List AppliedMigration) :
    Decidable (VerifiedFirst migrations records) :=
  inferInstanceAs (Decidable (_ → _))

/-- **Where the loop is refused**, nothing has changed exactly if the migrations before the first
    one that differs were all recorded with a checksum. -/
theorem applyFrom_refused (hnames : (todo.map (·.name)).Nodup)
    (h : (applyFrom pg todo db).1.IsRefusal) :
    db.Unchanged (applyFrom pg todo db).2 ↔ VerifiedFirst todo db.records := by
  have hexists := exists_differsIn hnames h
  rw [VerifiedFirst, imp_iff_right hexists]
  clear hexists
  induction todo generalizing db with
  | nil => exact absurd h id
  | cons migration todo ih =>
    rcases applyFrom_cons pg migration todo db with ⟨outcome, hstop, heq⟩ | ⟨db', hturn, heq⟩
    · rw [heq] at h ⊢
      refine iff_of_true (.refl db) fun migration' hmem => ?_
      cases hstop with
      | failed => exact absurd h id
      | differs hdiffers =>
        rw [List.takeWhile_cons, if_neg (by simpa using hdiffers)] at hmem
        exact absurd hmem List.not_mem_nil
    · rw [heq] at h ⊢
      rw [List.map_cons, List.nodup_cons] at hnames
      rw [List.takeWhile_cons, if_pos (by simpa using hturn.not_differsIn), List.forall_mem_cons]
      rcases hturn.unchanged_or with ⟨hsame, hrecorded⟩ | hrecorded
      · have hlater := ih hnames.2 h
        rw [hsame.records] at hlater
        rw [and_iff_right hrecorded]
        refine Iff.trans ?_ hlater
        exact ⟨fun hall => ⟨hall.records.trans hsame.records.symm,
          hall.effects.trans hsame.effects.symm⟩, hsame.trans⟩
      · -- the turn left a row with a checksum where there was none
        refine iff_of_false (fun hall => hrecorded ?_) (fun hall => hrecorded hall.1)
        obtain ⟨row, hrow, hname, hchecksum⟩ := hturn.row
        have hnull : row.checksum ≠ none := by
          rcases hchecksum with hchecksum | hchecksum <;> rw [hchecksum] <;>
            exact Option.some_ne_none _
        refine ⟨row, ?_, hname, hnull⟩
        rw [← hall.records]
        exact (applyFrom_progress pg todo db').kept row hrow hnull

/-- Where every migration is recorded as the release has it, the loop ends and changes nothing. -/
theorem applyFrom_of_recorded (pg : Postgres Schema) (hready : db.Ready)
    (hrows : ∀ migration ∈ todo, migration.row ∈ db.records) :
    (applyFrom pg todo db).1 = .succeeded ∧ db.Unchanged (applyFrom pg todo db).2 := by
  induction todo generalizing db with
  | nil => exact ⟨rfl, .refl db⟩
  | cons migration todo ih =>
    rw [List.forall_mem_cons] at hrows
    have hfound : db.selectChecksum migration.name = some (some migration.row) := by
      rw [Database.selectChecksum_of_ready hready, Option.some.injEq]
      cases hfind : db.records.find? fun row => row.name = migration.name with
      | none =>
        have hname : migration.row.name ≠ migration.name := by
          simpa using List.find?_eq_none.mp hfind _ hrows.1
        exact absurd rfl hname
      | some row =>
        have hname : row.name = migration.name := by simpa using List.find?_some hfind
        rw [Database.row_unique (List.mem_of_find?_eq_some hfind) hrows.1 hname]
    have hsame : ¬ migration.row.Differs migration := fun hdiffers => hdiffers.2 rfl
    simp only [applyFrom, hfound, if_neg hsame]
    by_cases hempty : migration.row.checksum.getD [] = []
    · obtain ⟨db', hbackfill⟩ :=
        Database.backfill_of_ready hready migration.name migration.checksum
      obtain ⟨hrecords, heffects, -, hready'⟩ := Database.backfill_eq_some hbackfill
      have hturn : Handled pg migration db db' := .backfilled hrows.1 rfl hempty hbackfill
      have hunchanged : db.Unchanged db' := by
        rcases hturn.unchanged_or with ⟨hsame, -⟩ | hrecorded
        · exact hsame
        · exact absurd ⟨_, hrows.1, rfl, Option.some_ne_none _⟩ hrecorded
      simp only [if_pos hempty, hbackfill]
      obtain ⟨hdone, hkept⟩ := ih hready' (by rw [hunchanged.records]; exact hrows.2)
      exact ⟨hdone, hunchanged.trans hkept⟩
    · simp only [if_neg hempty]
      exact ih hready hrows.2

/-! ### A whole run -/

/-- What a run may be started on without harm: unless a name is unknown, the checksums that differ
    come first, and where none differs no checksum is the empty text. -/
structure Verifiable (migrations : List LocalMigration) (records : List AppliedMigration) :
    Prop where
  verifiedFirst : VerifiedFirst migrations records
  nonempty : (∀ migration ∈ migrations, ¬ DiffersIn records migration) →
    ∀ migration ∈ migrations, ∀ row ∈ records, row.name = migration.name →
      row.checksum = some [] → migration.checksum = []

instance (migrations : List LocalMigration) (records : List AppliedMigration) :
    Decidable (Verifiable migrations records) :=
  decidable_of_iff (_ ∧ _) ⟨fun h => ⟨h.1, h.2⟩, fun h => ⟨h.1, h.2⟩⟩

/-- Some applied migration is not of the release. -/
def HasUnknown (migrations : List LocalMigration) (records : List AppliedMigration) : Prop :=
  ∃ row ∈ records, row.name ∉ migrations.map (·.name)

instance (migrations : List LocalMigration) (records : List AppliedMigration) :
    Decidable (HasUnknown migrations records) :=
  inferInstanceAs (Decidable (∃ row ∈ records, _))

theorem unchanged_prepared (db : Database Schema) :
    db.Unchanged db.createMigrationsTable.addChecksumColumn :=
  db.unchanged_created.trans (Database.unchanged_altered _)

/-- **A run is refused for its names or goes through its loop.** -/
theorem migrate_cases (pg : Postgres Schema) (migrations : List LocalMigration)
    (db : Database Schema) :
    (HasUnknown migrations db.records ∧ ∃ names, migrate pg migrations db =
      (.unknownApplied names, db.createMigrationsTable.addChecksumColumn)) ∨
    (¬ HasUnknown migrations db.records ∧ migrate pg migrations db =
      applyFrom pg migrations db.createMigrationsTable.addChecksumColumn) := by
  have hsame := unchanged_prepared db
  obtain ⟨names, hselect⟩ := Database.selectNames_of_ready pg (Database.ready_altered db)
  have hmem := Database.selectNames_eq_some hselect
  rw [hsame.records] at hmem
  have hiff : (names.filter fun name => name ∉ migrations.map (·.name)).length > 0 ↔
      HasUnknown migrations db.records := by
    rw [gt_iff_lt, List.length_pos_iff_exists_mem]
    constructor
    · rintro ⟨name, hname⟩
      rw [List.mem_filter, hmem, decide_eq_true_eq] at hname
      obtain ⟨row, hrow, rfl⟩ := List.mem_map.mp hname.1
      exact ⟨row, hrow, hname.2⟩
    · rintro ⟨row, hrow, hname⟩
      refine ⟨row.name, ?_⟩
      rw [List.mem_filter, hmem, decide_eq_true_eq]
      exact ⟨List.mem_map.mpr ⟨row, hrow, rfl⟩, hname⟩
  simp only [migrate, rest, verifyAndApply, hselect]
  by_cases hunknown : HasUnknown migrations db.records
  · exact .inl ⟨hunknown, _, if_pos (hiff.mpr hunknown)⟩
  · exact .inr ⟨hunknown, if_neg (hunknown ∘ hiff.mp)⟩

/-- A run that ends on a database that could be verified leaves a matching inventory. -/
theorem migrate_succeeded (hnames : (migrations.map (·.name)).Nodup)
    (hverifiable : HasUnknown migrations db.records ∨ Verifiable migrations db.records)
    (h : (migrate pg migrations db).1 = .succeeded) :
    (compareMigrationInventories migrations (migrate pg migrations db).2.records).allMatch := by
  rcases migrate_cases pg migrations db with ⟨-, names, heq⟩ | ⟨hunknown, heq⟩
  · rw [heq] at h
    cases h
  · rw [heq] at h ⊢
    have hsame := unchanged_prepared db
    have hprogress :=
      applyFrom_progress pg migrations db.createMigrationsTable.addChecksumColumn
    have hloop := applyFrom_succeeded h
    rw [hsame.records] at hprogress hloop
    have hnonempty := (hverifiable.resolve_left hunknown).nonempty fun migration hmem =>
      (hloop migration hmem).1
    rw [compare_allMatch_iff (Database.names_nodup _)]
    refine ⟨fun migration hmem => ?_, fun row hrow => ?_⟩
    · obtain ⟨-, row, hrow, hname, hchecksum⟩ := hloop migration hmem
      have hown : row.checksum = some migration.checksum := by
        rcases hchecksum with hchecksum | hchecksum
        · exact hchecksum
        · rcases hprogress.origin row hrow with hold | ⟨migration', hmem', rfl⟩
          · rw [hnonempty migration hmem row hold hname hchecksum, hchecksum]
          · rw [List.inj_on_of_nodup_map hnames hmem' hmem hname]
            rfl
      have heq : row = migration.row := by
        rw [LocalMigration.row, ← hname, ← hown]
      exact heq ▸ hrow
    · rcases hprogress.origin row hrow with hold | ⟨migration, hmem, rfl⟩
      · by_contra hname
        exact hunknown ⟨row, hold, hname⟩
      · exact List.mem_map.mpr ⟨migration, hmem, rfl⟩

/-- A run that is refused on a database that could be verified leaves it as it was. -/
theorem migrate_refused (hnames : (migrations.map (·.name)).Nodup)
    (hverifiable : HasUnknown migrations db.records ∨ Verifiable migrations db.records)
    (h : (migrate pg migrations db).1.IsRefusal) :
    db.Unchanged (migrate pg migrations db).2 := by
  have hsame := unchanged_prepared db
  rcases migrate_cases pg migrations db with ⟨-, names, heq⟩ | ⟨hunknown, heq⟩
  · rw [heq]
    exact hsame
  · rw [heq] at h ⊢
    refine hsame.trans ((applyFrom_refused hnames h).mpr ?_)
    rw [hsame.records]
    exact (hverifiable.resolve_left hunknown).verifiedFirst

/-- A run on a matching inventory ends and leaves everything as it was. -/
theorem migrate_of_match (pg : Postgres Schema)
    (h : (compareMigrationInventories migrations db.records).allMatch) :
    (migrate pg migrations db).1 = .succeeded ∧ db.Unchanged (migrate pg migrations db).2 := by
  obtain ⟨hrows, hnames⟩ := (compare_allMatch_iff db.names_nodup).mp h
  have hsame := unchanged_prepared db
  rcases migrate_cases pg migrations db with ⟨⟨row, hrow, hname⟩, -⟩ | ⟨-, heq⟩
  · exact absurd (hnames row hrow) hname
  · obtain ⟨hdone, hkept⟩ := applyFrom_of_recorded pg (Database.ready_altered db)
      (by rw [hsame.records]; exact hrows)
    rw [heq]
    exact ⟨hdone, hsame.trans hkept⟩

end ResearchWorkbench.Migrations
