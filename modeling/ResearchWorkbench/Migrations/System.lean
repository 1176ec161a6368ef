import ResearchWorkbench.Library.Transition
import ResearchWorkbench.Migrations.Loop

namespace ResearchWorkbench.Migrations

/-!
# Migrate processes on one database

* `Stepped`, `next_stepped` — what an action can do, once and for all;
* `EffectsRecorded` — each migration took effect once at most, with its record;
* `ProcessOk`, `Inv`, `Stepped.inv` — the invariant: what is left of the run of the process with
  the lock, on the database as it is, comes to its whole run on the database as it was;
* `stepsLeft`, `undisturbed_ends` — a run whose statements do not fail ends;
* `migrations_sound` — the runs of any number of processes, where each starts on a database that
  can be verified.

A checksum that differs is found only when its turn comes: `refused_after_applying`.
-/

variable {Schema ι : Type} [DecidableEq ι] {pg : Postgres Schema} {db db' : Database Schema}
  {s t : State ι Schema} {a : Action ι} {i j : ι}

/-! ### What an action can do -/

/-- The process has the lock. -/
def Phase.Holds : Phase Schema → Prop
  | .locking => False
  | .ended _ => False
  | _ => True

/-- The process is about to give up the lock. -/
def Phase.Unlocks : Phase Schema → Prop
  | .unlocking _ => True
  | _ => False

/-- The process of an action. -/
def Action.process : Action ι → ι
  | .proceed i => i
  | .fail i => i
  | .crash i => i

/-- The state after process `i` took its next statement. -/
def State.advanced (pg : Postgres Schema) (s : State ι Schema) (i : ι) : State ι Schema :=
  let (phase, db) := advance pg (s.processes i).migrations s.database (s.processes i).phase
  { s.setProcess i { s.processes i with phase } with database := db }

/-- The state after process `i` got the lock. -/
def State.locked (s : State ι Schema) (i : ι) : State ι Schema :=
  { s.setProcess i { s.processes i with phase := .creating, before := some s.database } with
    lock := some i }

/-- The ends of a run that the outside brings about. -/
def Outcome.IsDisturbed (outcome : Outcome) : Prop :=
  outcome = .failed ∨ outcome = .crashed

/-- What an action `a` of process `i` makes of a state. -/
inductive Stepped (pg : Postgres Schema) (s : State ι Schema) (a : Action ι) (i : ι) :
    State ι Schema → Prop where
  | waits (hidle : ¬ (s.processes i).phase.Holds) : Stepped pg s a i s
  | locks (haction : a = .proceed i) (hphase : (s.processes i).phase = .locking)
      (hlock : s.lock = none) : Stepped pg s a i (s.locked i)
  | abandons {outcome : Outcome} (hphase : (s.processes i).phase = .locking)
      (hdisturbed : outcome.IsDisturbed) : Stepped pg s a i (s.abandon i outcome)
  | advances (hholds : (s.processes i).phase.Holds) (hnot : ¬ (s.processes i).phase.Unlocks) :
      Stepped pg s a i (s.advanced pg i)
  | fails (haction : a ≠ .proceed i) (hholds : (s.processes i).phase.Holds) :
      Stepped pg s a i
        (s.setProcess i { s.processes i with phase := failing (s.processes i).phase })
  | releases {outcome : Outcome} (hholds : (s.processes i).phase.Holds)
      (h : a ≠ .proceed i ∧ outcome.IsDisturbed ∨ (s.processes i).phase = .unlocking outcome) :
      Stepped pg s a i (s.release i outcome)

/-- **Every action is one of these.** -/
theorem next_stepped (pg : Postgres Schema) (s : State ι Schema) (a : Action ι) :
    Stepped pg s a a.process (next pg s a) := by
  cases a with
  | proceed i =>
    simp only [next, Action.process]
    cases hphase : (s.processes i).phase with
    | locking =>
      by_cases hlock : s.lock = none
      · simp only [if_pos hlock]
        exact .locks rfl hphase hlock
      · simp only [if_neg hlock]
        exact .waits (by rw [hphase]; exact id)
    | unlocking outcome => exact .releases (by rw [hphase]; trivial) (.inr hphase)
    | ended outcome => exact .waits (by rw [hphase]; exact id)
    | _ =>
      have h : Stepped pg s (.proceed i) i (s.advanced pg i) :=
        .advances (by rw [hphase]; trivial) (by rw [hphase]; exact id)
      rw [State.advanced, hphase] at h
      exact h
  | fail i =>
    simp only [next, Action.process]
    cases hphase : (s.processes i).phase with
    | locking => exact .abandons hphase (.inl rfl)
    | unlocking outcome => exact .releases (by rw [hphase]; trivial) (.inl ⟨by simp, .inl rfl⟩)
    | ended outcome => exact .waits (by rw [hphase]; exact id)
    | _ =>
      have h : Stepped pg s (.fail i) i _ := .fails (by simp) (by rw [hphase]; trivial)
      rw [hphase] at h
      exact h
  | crash i =>
    simp only [next, Action.process]
    cases hphase : (s.processes i).phase with
    | locking => exact .abandons hphase (.inr rfl)
    | ended outcome => exact .waits (by rw [hphase]; exact id)
    | _ => exact .releases (by rw [hphase]; trivial) (.inl ⟨by simp, .inr rfl⟩)

/-- An action changes its own process only. -/
theorem Stepped.other (h : Stepped pg s a i t) (hij : j ≠ i) : t.processes j = s.processes j := by
  cases h with
  | waits _ => rfl
  | _ => exact Function.update_of_ne hij _ _

/-- A process that does not have the lock leaves the database alone, and the lock where another
    process has it. -/
theorem Stepped.idle (h : Stepped pg s a i t) (hidle : ¬ (s.processes i).phase.Holds)
    (hlock : s.lock ≠ none) : t.database = s.database ∧ t.lock = s.lock := by
  cases h with
  | waits _ => exact ⟨rfl, rfl⟩
  | locks _ _ hfree => exact absurd hfree hlock
  | abandons _ _ => exact ⟨rfl, rfl⟩
  | advances hholds _ => exact absurd hholds hidle
  | fails _ hholds => exact absurd hholds hidle
  | releases hholds _ => exact absurd hholds hidle

/-- A process that has ended does nothing any more. -/
theorem Stepped.ended {outcome : Outcome} (h : Stepped pg s a i t)
    (hended : (s.processes i).phase = .ended outcome) : t.processes i = s.processes i := by
  cases h with
  | waits _ => rfl
  | locks _ hphase _ => exact absurd (hended.symm.trans hphase) (by simp)
  | abandons hphase _ => exact absurd (hended.symm.trans hphase) (by simp)
  | advances hholds _ => exact absurd hholds (by rw [hended]; exact id)
  | fails _ hholds => exact absurd hholds (by rw [hended]; exact id)
  | releases hholds _ => exact absurd hholds (by rw [hended]; exact id)

/-! ### Effects and records -/

/-- Since the database `init`, the SQL of each migration took effect once at most, where it was not
    recorded, and with its record; every new record is that of a migration that took effect. -/
structure EffectsRecorded (pg : Postgres Schema) (init db : Database Schema) : Prop where
  once : (db.effects.map (·.name)).Nodup
  fresh : ∀ migration ∈ db.effects, migration.name ∉ init.records.map (·.name)
  recorded : ∀ migration ∈ db.effects, migration.row ∈ db.records
  kept : ∀ row ∈ init.records, row.name ∈ db.records.map (·.name)
  origin : ∀ row ∈ db.records, row.name ∈ init.records.map (·.name) ∨
    ∃ migration ∈ db.effects, migration.name = row.name
  schema : db.effects.foldlM (fun schema migration => pg.execute migration.sql schema)
    init.schema = some db.schema

variable {init : Database Schema} {migration : LocalMigration}

theorem EffectsRecorded.initial (h : db.effects = []) : EffectsRecorded pg db db where
  once := by rw [h]; exact List.nodup_nil
  fresh := fun _ hmem => absurd (h ▸ hmem) List.not_mem_nil
  recorded := fun _ hmem => absurd (h ▸ hmem) List.not_mem_nil
  kept := fun row hrow => List.mem_map.mpr ⟨row, hrow, rfl⟩
  origin := fun row hrow => .inl (List.mem_map.mpr ⟨row, hrow, rfl⟩)
  schema := by rw [h]; rfl

theorem EffectsRecorded.unchanged (h : EffectsRecorded pg init db) (hsame : db.Unchanged db')
    (hschema : db'.schema = db.schema) : EffectsRecorded pg init db' := by
  obtain ⟨hrecords, heffects⟩ := hsame
  exact ⟨heffects ▸ h.once, heffects ▸ h.fresh, heffects ▸ hrecords ▸ h.recorded,
    hrecords ▸ h.kept, heffects ▸ hrecords ▸ h.origin, heffects ▸ hschema ▸ h.schema⟩

theorem EffectsRecorded.backfill (h : EffectsRecorded pg init db) {name checksum : Text}
    (hbackfill : db.backfill name checksum = some db') : EffectsRecorded pg init db' := by
  obtain ⟨hrecords, heffects, hschema, -⟩ := Database.backfill_eq_some hbackfill
  have hnames : db'.records.map (·.name) = db.records.map (·.name) := by
    rw [hrecords, List.map_map]
    exact List.map_congr_left fun row _ => MigrationsTable.backfilledRow_name name checksum row
  refine ⟨heffects ▸ h.once, heffects ▸ h.fresh, ?_, hnames ▸ h.kept, ?_,
    heffects ▸ hschema ▸ h.schema⟩
  · intro migration hmem
    rw [hrecords]
    exact List.mem_map.mpr ⟨_, h.recorded migration (heffects ▸ hmem),
      backfilledRow_of_checksum (Option.some_ne_none _)⟩
  · intro row hrow
    have hname : row.name ∈ db.records.map (·.name) :=
      hnames ▸ List.mem_map.mpr ⟨row, hrow, rfl⟩
    obtain ⟨old, hold, heq⟩ := List.mem_map.mp hname
    rw [heffects, ← heq]
    exact h.origin old hold

/-- A migration applied in its transaction is a new one, and is recorded with its effect. -/
theorem EffectsRecorded.applyOne (h : EffectsRecorded pg init db)
    (happly : db.applyOne pg migration = some db') : EffectsRecorded pg init db' := by
  obtain ⟨hrecords, hname, heffects, hschema, -⟩ := Database.applyOne_eq_some happly
  refine ⟨?_, ?_, ?_, ?_, ?_, ?_⟩
  · rw [heffects, List.map_append, List.map_singleton]
    refine List.nodup_append.mpr ⟨h.once, List.nodup_singleton _, ?_⟩
    intro name hold name' hnew heq
    obtain ⟨migration', hmem, rfl⟩ := List.mem_map.mp hold
    refine hname ?_
    rw [← List.mem_singleton.mp hnew, ← heq]
    exact List.mem_map.mpr ⟨_, h.recorded migration' hmem, rfl⟩
  · intro migration' hmem
    rw [heffects, List.mem_append, List.mem_singleton] at hmem
    rcases hmem with hold | rfl
    · exact h.fresh migration' hold
    · intro hinit
      obtain ⟨row, hrow, heq⟩ := List.mem_map.mp hinit
      exact hname (heq ▸ h.kept row hrow)
  · intro migration' hmem
    rw [heffects, List.mem_append, List.mem_singleton] at hmem
    rw [hrecords, List.mem_append, List.mem_singleton]
    rcases hmem with hold | rfl
    · exact .inl (h.recorded migration' hold)
    · exact .inr rfl
  · intro row hrow
    rw [hrecords, List.map_append]
    exact List.mem_append_left _ (h.kept row hrow)
  · intro row hrow
    rw [hrecords, List.mem_append, List.mem_singleton] at hrow
    rw [heffects]
    rcases hrow with hold | rfl
    · rcases h.origin row hold with hinit | ⟨migration', hmem, heq⟩
      · exact .inl hinit
      · exact .inr ⟨migration', List.mem_append_left _ hmem, heq⟩
    · exact .inr ⟨migration, List.mem_append_right _ (List.mem_singleton_self _), rfl⟩
  · rw [heffects, List.foldlM_append, h.schema]
    show (pg.execute migration.sql db.schema).bind some = some db'.schema
    rw [hschema]
    rfl

/-! ### Statements that read -/

theorem advance_readingApplied (pg : Postgres Schema) (migrations : List LocalMigration)
    (db : Database Schema) :
    (∃ outcome, advance pg migrations db .readingApplied = (.unlocking outcome, db)) ∨
      advance pg migrations db .readingApplied = (.migrating migrations, db) := by
  simp only [advance]
  cases db.selectNames pg with
  | none => exact .inl ⟨_, rfl⟩
  | some names =>
    dsimp only
    split
    · exact .inl ⟨_, rfl⟩
    · exact .inr rfl

theorem advance_migrating (pg : Postgres Schema) (migrations : List LocalMigration)
    (db : Database Schema) (migration : LocalMigration) (todo : List LocalMigration) :
    (∃ outcome, advance pg migrations db (.migrating (migration :: todo)) =
      (.unlocking outcome, db)) ∨
    advance pg migrations db (.migrating (migration :: todo)) = (.backfilling migration todo, db) ∨
    advance pg migrations db (.migrating (migration :: todo)) = (.beginning migration todo, db) ∨
    advance pg migrations db (.migrating (migration :: todo)) = (.migrating todo, db) := by
  simp only [advance]
  rcases db.selectChecksum migration.name with _ | _ | existing
  · exact .inl ⟨_, rfl⟩
  · exact .inr (.inr (.inl rfl))
  · dsimp only
    split
    · exact .inl ⟨_, rfl⟩
    · split
      · exact .inr (.inl rfl)
      · exact .inr (.inr (.inr rfl))

/-! ### The invariant -/

/-- What a transaction has done so far. -/
def ViewOk (pg : Postgres Schema) (db : Database Schema) : Phase Schema → Prop
  | .executing view _ _ => view = db
  | .inserting view migration _ => db.execute pg migration = some view
  | .committing view migration _ => db.applyOne pg migration = some view
  | _ => True

theorem viewOk_advance (pg : Postgres Schema) (migrations : List LocalMigration)
    {phase : Phase Schema} (h : ViewOk pg db phase) :
    ViewOk pg (advance pg migrations db phase).2 (advance pg migrations db phase).1 := by
  cases phase with
  | readingApplied =>
    rcases advance_readingApplied pg migrations db with ⟨outcome, heq⟩ | heq <;> rw [heq] <;>
      trivial
  | migrating todo =>
    cases todo with
    | nil => trivial
    | cons migration todo =>
      rcases advance_migrating pg migrations db migration todo with
        ⟨outcome, heq⟩ | heq | heq | heq <;> rw [heq] <;> trivial
  | backfilling migration todo =>
    simp only [advance]
    cases db.backfill migration.name migration.checksum <;> trivial
  | beginning migration todo => rfl
  | executing view migration todo =>
    obtain rfl : view = db := h
    simp only [advance]
    cases hexecute : view.execute pg migration with
    | none => trivial
    | some view' => exact hexecute
  | inserting view migration todo =>
    have hview : db.execute pg migration = some view := h
    simp only [advance]
    cases hinsert : view.insert migration with
    | none => trivial
    | some view' =>
      show db.applyOne pg migration = some view'
      rw [Database.applyOne, hview, Option.bind_some, hinsert]
  | _ => trivial

theorem EffectsRecorded.advance (migrations : List LocalMigration) {phase : Phase Schema}
    (h : EffectsRecorded pg init db) (hview : ViewOk pg db phase) :
    EffectsRecorded pg init (advance pg migrations db phase).2 := by
  cases phase with
  | creating => exact h.unchanged db.unchanged_created rfl
  | altering => exact h.unchanged db.unchanged_altered rfl
  | readingApplied =>
    rcases advance_readingApplied pg migrations db with ⟨outcome, heq⟩ | heq <;> rw [heq] <;>
      exact h
  | migrating todo =>
    cases todo with
    | nil => exact h
    | cons migration todo =>
      rcases advance_migrating pg migrations db migration todo with
        ⟨outcome, heq⟩ | heq | heq | heq <;> rw [heq] <;> exact h
  | backfilling migration todo =>
    simp only [Migrations.advance]
    cases hbackfill : db.backfill migration.name migration.checksum with
    | none => exact h
    | some db' => exact h.backfill hbackfill
  | executing view migration todo =>
    simp only [Migrations.advance]
    cases view.execute pg migration <;> exact h
  | inserting view migration todo =>
    simp only [Migrations.advance]
    cases view.insert migration <;> exact h
  | committing view migration todo => exact h.applyOne hview
  | _ => exact h

/-- An upper bound of the statements a process still takes. -/
def stepsLeft (migrations : List LocalMigration) : Phase Schema → ℕ
  | .locking => 6 + 5 * migrations.length
  | .creating => 5 + 5 * migrations.length
  | .altering => 4 + 5 * migrations.length
  | .readingApplied => 3 + 5 * migrations.length
  | .migrating todo => 2 + 5 * todo.length
  | .backfilling _ todo => 3 + 5 * todo.length
  | .beginning _ todo => 6 + 5 * todo.length
  | .executing _ _ todo => 5 + 5 * todo.length
  | .inserting _ _ todo => 4 + 5 * todo.length
  | .committing _ _ todo => 3 + 5 * todo.length
  | .rollingBack => 2
  | .unlocking _ => 1
  | .ended _ => 0

/-- A statement under the lock keeps the lock, and takes the run towards its end. -/
theorem advance_holds (pg : Postgres Schema) (migrations : List LocalMigration)
    (db : Database Schema) {phase : Phase Schema} (hholds : phase.Holds)
    (hnot : ¬ phase.Unlocks) :
    (advance pg migrations db phase).1.Holds ∧
      stepsLeft migrations (advance pg migrations db phase).1 < stepsLeft migrations phase := by
  cases phase with
  | locking => exact absurd hholds id
  | ended outcome => exact absurd hholds id
  | unlocking outcome => exact absurd trivial hnot
  | readingApplied =>
    rcases advance_readingApplied pg migrations db with ⟨outcome, heq⟩ | heq <;> rw [heq] <;>
      refine ⟨trivial, ?_⟩ <;> simp only [stepsLeft] <;> omega
  | migrating todo =>
    cases todo with
    | nil => exact ⟨trivial, by simp [advance, stepsLeft]⟩
    | cons migration todo =>
      rcases advance_migrating pg migrations db migration todo with
        ⟨outcome, heq⟩ | heq | heq | heq <;> rw [heq] <;> refine ⟨trivial, ?_⟩ <;>
        simp only [stepsLeft, List.length_cons] <;> omega
  | backfilling migration todo =>
    simp only [advance]
    cases db.backfill migration.name migration.checksum <;> refine ⟨trivial, ?_⟩ <;>
      simp only [stepsLeft] <;> omega
  | executing view migration todo =>
    simp only [advance]
    cases view.execute pg migration <;> refine ⟨trivial, ?_⟩ <;> simp only [stepsLeft] <;> omega
  | inserting view migration todo =>
    simp only [advance]
    cases view.insert migration <;> refine ⟨trivial, ?_⟩ <;> simp only [stepsLeft] <;> omega
  | _ =>
    refine ⟨trivial, ?_⟩
    simp only [advance, stepsLeft]
    omega

/-- What is known of a process, on the database as it is: what is left of its run comes to the
    whole of it, until a statement fails. -/
structure ProcessOk (pg : Postgres Schema) (db : Database Schema) (p : Process Schema) : Prop where
  holding : p.phase.Holds → ∃ before, p.before = some before ∧
    (p.phase = .rollingBack ∨ p.phase = .unlocking .failed ∨
      rest pg p.migrations db p.phase = migrate pg p.migrations before)
  view : ViewOk pg db p.phase
  ended : ∀ outcome, p.phase = .ended outcome → outcome.IsDisturbed ∨
    ∃ before after, p.before = some before ∧ p.after = some after ∧
      migrate pg p.migrations before = (outcome, after)

/-- What is known of a process without the lock does not depend on the database. -/
theorem ProcessOk.idle {p : Process Schema} (h : ProcessOk pg db p) (hidle : ¬ p.phase.Holds)
    (db' : Database Schema) : ProcessOk pg db' p := by
  refine ⟨fun hholds => absurd hholds hidle, ?_, h.ended⟩
  cases hphase : p.phase <;> rw [hphase] at hidle <;>
    first | trivial | exact absurd trivial hidle

/-- The invariant: one process at most has the lock, each does its part, and each migration took
    effect once at most with its record. -/
structure Inv (pg : Postgres Schema) (init : Database Schema) (s : State ι Schema) : Prop where
  lock_iff : ∀ i, (s.processes i).phase.Holds ↔ s.lock = some i
  process : ∀ i, ProcessOk pg s.database (s.processes i)
  effects : EffectsRecorded pg init s.database

omit [DecidableEq ι] in
theorem Inv.others_idle (h : Inv pg init s) (hholds : (s.processes i).phase.Holds)
    (hij : j ≠ i) : ¬ (s.processes j).phase.Holds := by
  intro hj
  have heq := ((h.lock_iff i).mp hholds).symm.trans ((h.lock_iff j).mp hj)
  exact hij (Option.some.inj heq).symm

omit [DecidableEq ι] in
theorem Inv.unlocked_idle (h : Inv pg init s) (hlock : s.lock = none) (j : ι) :
    ¬ (s.processes j).phase.Holds := by
  intro hj
  rw [(h.lock_iff j).mp hj] at hlock
  cases hlock

/-- The invariant after one process changed: what must be known of it and of the lock. -/
theorem Inv.update (h : Inv pg init s) (hother : ∀ j, j ≠ i → t.processes j = s.processes j)
    (hidle : t.database = s.database ∨ ∀ j, j ≠ i → ¬ (s.processes j).phase.Holds)
    (hlock : ∀ j, (t.processes j).phase.Holds ↔ t.lock = some j)
    (hprocess : ProcessOk pg t.database (t.processes i))
    (heffects : EffectsRecorded pg init t.database) : Inv pg init t := by
  refine ⟨hlock, fun j => ?_, heffects⟩
  by_cases hij : j = i
  · subst hij
    exact hprocess
  · rw [hother j hij]
    rcases hidle with hsame | hidle
    · rw [hsame]
      exact h.process j
    · exact (h.process j).idle (hidle j hij) _

theorem failing_cases (phase : Phase Schema) :
    failing phase = .rollingBack ∨ failing phase = .unlocking .failed := by
  cases phase <;> first | exact .inl rfl | exact .inr rfl

theorem failing_holds (phase : Phase Schema) : (failing phase).Holds := by
  rcases failing_cases phase with heq | heq <;> rw [heq] <;> trivial

/-- The process that takes a statement under the lock. -/
theorem ProcessOk.advance {p : Process Schema} (h : ProcessOk pg db p) (hholds : p.phase.Holds)
    (hnot : ¬ p.phase.Unlocks) :
    ProcessOk pg (Migrations.advance pg p.migrations db p.phase).2
      { p with phase := (Migrations.advance pg p.migrations db p.phase).1 } := by
  obtain ⟨hheld, -⟩ := advance_holds pg p.migrations db hholds hnot
  refine ⟨fun _ => ?_, viewOk_advance pg p.migrations h.view, fun outcome hended => ?_⟩
  · obtain ⟨before, hbefore, hback | hfailed | hrest⟩ := h.holding hholds
    · refine ⟨before, hbefore, .inr (.inl ?_)⟩
      simp only [hback, Migrations.advance]
    · exact absurd (by rw [hfailed]; trivial) hnot
    · exact ⟨before, hbefore, .inr (.inr ((rest_advance _ _ _ _).trans hrest))⟩
  · have hphase : (Migrations.advance pg p.migrations db p.phase).1 = .ended outcome := hended
    rw [hphase] at hheld
    exact absurd hheld id

/-- **One action keeps the invariant.** -/
theorem Stepped.inv (h : Stepped pg s a i t) (hs : Inv pg init s) : Inv pg init t := by
  have hother : ∀ j, j ≠ i → t.processes j = s.processes j := fun j => h.other
  cases h with
  | waits _ => exact hs
  | locks _ hphase hlock =>
    have hself : ((s.locked i).processes i) =
        { s.processes i with phase := .creating, before := some s.database } :=
      Function.update_self _ _ _
    refine hs.update hother (.inl rfl) (fun j => ?_) ?_ hs.effects
    · by_cases hij : j = i
      · subst hij
        rw [hself]
        exact iff_of_true trivial rfl
      · rw [hother j hij]
        exact iff_of_false (hs.unlocked_idle hlock j) fun heq => hij (Option.some.inj heq).symm
    · rw [hself]
      exact ⟨fun _ => ⟨s.database, rfl, .inr (.inr rfl)⟩, trivial, fun outcome hended => by
        cases hended⟩
  | @abandons outcome hphase hdisturbed =>
    have hself : ((s.abandon i outcome).processes i) =
        { s.processes i with phase := .ended outcome } :=
      Function.update_self _ _ _
    refine hs.update hother (.inl rfl) (fun j => ?_) ?_ hs.effects
    · by_cases hij : j = i
      · subst hij
        have hidle : s.lock ≠ some j := fun hlock =>
          absurd ((hs.lock_iff j).mpr hlock) (by rw [hphase]; exact id)
        rw [hself]
        exact iff_of_false id hidle
      · rw [hother j hij]
        exact hs.lock_iff j
    · rw [hself]
      refine ⟨fun hholds => absurd hholds id, trivial, fun outcome' hended => ?_⟩
      obtain rfl : outcome = outcome' := by injection hended
      exact .inl hdisturbed
  | advances hholds hnot =>
    have hself : ((s.advanced pg i).processes i) = { s.processes i with
        phase := (advance pg (s.processes i).migrations s.database (s.processes i).phase).1 } :=
      Function.update_self _ _ _
    refine hs.update hother (.inr fun j hij => hs.others_idle hholds hij) (fun j => ?_) ?_
      (hs.effects.advance _ (hs.process i).view)
    · by_cases hij : j = i
      · subst hij
        rw [hself]
        exact iff_of_true (advance_holds pg _ _ hholds hnot).1 ((hs.lock_iff j).mp hholds)
      · rw [hother j hij]
        exact hs.lock_iff j
    · rw [hself]
      exact (hs.process i).advance hholds hnot
  | fails _ hholds =>
    have hself : ((s.setProcess i { s.processes i with
        phase := failing (s.processes i).phase }).processes i) =
        { s.processes i with phase := failing (s.processes i).phase } :=
      Function.update_self _ _ _
    refine hs.update hother (.inl rfl) (fun j => ?_) ?_ hs.effects
    · by_cases hij : j = i
      · subst hij
        rw [hself]
        exact iff_of_true (failing_holds _) ((hs.lock_iff j).mp hholds)
      · rw [hother j hij]
        exact hs.lock_iff j
    · rw [hself]
      obtain ⟨before, hbefore, -⟩ := (hs.process i).holding hholds
      have hcases := failing_cases (s.processes i).phase
      refine ⟨fun _ => ⟨before, hbefore, hcases.imp_right .inl⟩, ?_, fun outcome hended => ?_⟩
      · rcases hcases with heq | heq <;> simp only [heq] <;> trivial
      · rcases hcases with heq | heq <;> exact absurd (heq.symm.trans hended) (by simp)
  | @releases outcome hholds hends =>
    have hself : ((s.release i outcome).processes i) =
        { s.processes i with phase := .ended outcome, after := some s.database } :=
      Function.update_self _ _ _
    refine hs.update hother (.inl rfl) (fun j => ?_) ?_ hs.effects
    · by_cases hij : j = i
      · subst hij
        rw [hself]
        exact iff_of_false id (by simp [State.release])
      · rw [hother j hij]
        exact iff_of_false (hs.others_idle hholds hij) (by simp [State.release])
    · rw [hself]
      refine ⟨fun hheld => absurd hheld id, trivial, fun outcome' hended => ?_⟩
      obtain rfl : outcome = outcome' := by injection hended
      rcases hends with ⟨-, hdisturbed⟩ | hphase
      · exact .inl hdisturbed
      · obtain ⟨before, hbefore, hback | hfailed | hrest⟩ := (hs.process i).holding hholds
        · rw [hphase] at hback
          cases hback
        · rw [hphase] at hfailed
          injection hfailed with hfailed
          exact .inl (.inl hfailed)
        · rw [hphase] at hrest
          exact .inr ⟨before, s.database, hbefore, rfl, hrest.symm⟩

/-! ### A run whose statements do not fail -/

theorem next_other (pg : Postgres Schema) (s : State ι Schema) {a : Action ι}
    (h : i ≠ a.process) : (next pg s a).processes i = s.processes i :=
  (next_stepped pg s a).other h

/-- A process that has ended stays as it is. -/
theorem foldl_ended {outcome : Outcome} (l : List (Action ι))
    (h : (s.processes i).phase = .ended outcome) :
    (l.foldl (next pg) s).processes i = s.processes i := by
  induction l generalizing s with
  | nil => rfl
  | cons a l ih =>
    have hsame : (next pg s a).processes i = s.processes i := by
      by_cases hi : i = a.process
      · subst hi
        exact (next_stepped pg s a).ended h
      · exact next_other pg s hi
    rw [List.foldl_cons, ih (by rw [hsame]; exact h), hsame]

/-- Nothing disturbs process `i`: none of its statements fails, and it does not crash. -/
def Undisturbed (i : ι) (l : List (Action ι)) : Prop :=
  ∀ a ∈ l, a.process = i → a = .proceed i

/-- **A run ends.**  A process with the lock that takes enough statements, none of which fails,
    whatever the others do, ends as what was left of its run says. -/
theorem undisturbed_ends (l : List (Action ι)) {outcome : Outcome} (hs : Inv pg init s)
    (hholds : (s.processes i).phase.Holds)
    (hrest : rest pg (s.processes i).migrations s.database (s.processes i).phase = (outcome, db))
    (hl : Undisturbed i l)
    (hcount : stepsLeft (s.processes i).migrations (s.processes i).phase ≤
      l.count (.proceed i)) :
    ((l.foldl (next pg) s).processes i).phase = .ended outcome ∧
      ((l.foldl (next pg) s).processes i).after = some db := by
  induction l generalizing s with
  | nil =>
    rw [List.count_nil, Nat.le_zero] at hcount
    cases hphase : (s.processes i).phase <;> rw [hphase] at hcount hholds <;>
      simp only [stepsLeft] at hcount <;> first | omega | exact absurd hholds id
  | cons a l ih =>
    have hstep := next_stepped pg s a
    have hnext := hstep.inv hs
    have htail : Undisturbed i l := fun b hb => hl b (List.mem_cons_of_mem _ hb)
    rw [List.foldl_cons]
    by_cases hi : a.process = i
    · obtain rfl : a = .proceed i := hl a List.mem_cons_self hi
      rw [List.count_cons_self] at hcount
      generalize hu : next pg s (.proceed i) = u at hstep hnext ⊢
      have hstep : Stepped pg s (.proceed i) i u := hstep
      cases hstep with
      | waits hidle => exact absurd hholds hidle
      | locks _ hphase _ =>
        rw [hphase] at hholds
        exact absurd hholds id
      | abandons hphase _ =>
        rw [hphase] at hholds
        exact absurd hholds id
      | fails haction _ => exact absurd rfl haction
      | advances _ hnot =>
        have hself : ((s.advanced pg i).processes i) = { s.processes i with
            phase := (advance pg (s.processes i).migrations s.database (s.processes i).phase).1 } :=
          Function.update_self _ _ _
        obtain ⟨hheld, hless⟩ :=
          advance_holds pg (s.processes i).migrations s.database hholds hnot
        refine ih hnext (by rw [hself]; exact hheld) ?_ htail ?_
        · rw [hself]
          exact (rest_advance _ _ _ _).trans hrest
        · rw [hself]
          dsimp only
          omega
      | @releases outcome' _ hends =>
        have hphase := hends.resolve_left fun h => h.1 rfl
        rw [hphase] at hrest
        have hself : ((s.release i outcome').processes i) =
            { s.processes i with phase := .ended outcome', after := some s.database } :=
          Function.update_self _ _ _
        rw [foldl_ended l (by rw [hself]), hself]
        obtain ⟨rfl, rfl⟩ := Prod.mk.inj hrest
        exact ⟨rfl, rfl⟩
    · -- another process waits, or is through
      have hidle := hs.others_idle hholds (j := a.process) hi
      have hlock : s.lock ≠ none := by
        rw [(hs.lock_iff i).mp hholds]
        exact Option.some_ne_none i
      obtain ⟨hdatabase, -⟩ := hstep.idle hidle hlock
      have hsame := next_other pg s (a := a) (i := i) (Ne.symm hi)
      rw [List.count_cons_of_ne (fun heq => hi (by rw [heq]; rfl))] at hcount
      refine ih hnext (by rw [hsame]; exact hholds) ?_ htail (by rw [hsame]; exact hcount)
      rw [hsame, hdatabase]
      exact hrest

/-! ### All runs -/

/-- The guard: a process that takes the lock finds a database that it can verify. -/
def StartsVerifiable (s : State ι Schema) : Action ι → Prop
  | .proceed i => (s.processes i).phase = .locking → s.lock = none →
      HasUnknown (s.processes i).migrations s.database.records ∨
        Verifiable (s.processes i).migrations s.database.records
  | _ => True

instance [DecidableEq Schema] (s : State ι Schema) :
    DecidablePred (StartsVerifiable s)
  | .proceed i => inferInstanceAs (Decidable ((s.processes i).phase = .locking → s.lock = none → _))
  | .fail _ => isTrue trivial
  | .crash _ => isTrue trivial

/-- The inventories match: `compareMigrationInventories(local, applied).matches`. -/
def InventoryMatches (migrations : List LocalMigration) (db : Database Schema) : Prop :=
  (compareMigrationInventories migrations db.records).allMatch = true

/-- What a process that has ended may have done: a success leaves a matching inventory, a refusal
    leaves everything as it was, and so does every run on a matching inventory, which succeeds
    unless it is disturbed. -/
structure RunSound (p : Process Schema) (outcome : Outcome) : Prop where
  success : outcome = .succeeded → ∃ after, p.after = some after ∧ InventoryMatches p.migrations after
  refusal : outcome.IsRefusal → ∃ before after, p.before = some before ∧ p.after = some after ∧
    before.Unchanged after
  settled : ∀ before, p.before = some before → InventoryMatches p.migrations before →
    outcome.IsDisturbed ∨
      outcome = .succeeded ∧ ∃ after, p.after = some after ∧ before.Unchanged after

/-- What each process started on. -/
structure Started (p : Process Schema) : Prop where
  names_nodup : (p.migrations.map (·.name)).Nodup
  verifiable : ∀ before, p.before = some before →
    HasUnknown p.migrations before.records ∨ Verifiable p.migrations before.records

theorem Stepped.started (h : Stepped pg s a i t) (hs : ∀ i, Started (s.processes i))
    (hguard : StartsVerifiable s a) : ∀ i, Started (t.processes i) := by
  intro j
  by_cases hij : j = i
  · subst hij
    cases h with
    | waits _ => exact hs j
    | locks haction hphase hlock =>
      subst haction
      have hself : ((s.locked j).processes j) =
          { s.processes j with phase := .creating, before := some s.database } :=
        Function.update_self _ _ _
      rw [hself]
      refine ⟨(hs j).names_nodup, fun before hbefore => ?_⟩
      obtain rfl : s.database = before := Option.some.inj hbefore
      exact hguard hphase hlock
    | _ =>
      simp only [State.abandon, State.advanced, State.setProcess, State.release,
        Function.update_self]
      exact ⟨(hs j).names_nodup, (hs j).verifiable⟩
  · rw [h.other hij]
    exact hs j

/-- How a process ends that started on a database it could verify. -/
theorem ProcessOk.runSound {p : Process Schema} {outcome : Outcome} (h : ProcessOk pg db p)
    (hstarted : Started p) (hended : p.phase = .ended outcome) : RunSound p outcome := by
  rcases h.ended outcome hended with hdisturbed | ⟨before, after, hbefore, hafter, hrun⟩
  · refine ⟨fun heq => ?_, fun hrefusal => ?_, fun _ _ _ => .inl hdisturbed⟩
    · rcases hdisturbed with rfl | rfl <;> cases heq
    · rcases hdisturbed with rfl | rfl <;> exact absurd hrefusal id
  · have hverifiable := hstarted.verifiable before hbefore
    have houtcome : (migrate pg p.migrations before).1 = outcome := by rw [hrun]
    have hdatabase : (migrate pg p.migrations before).2 = after := by rw [hrun]
    refine ⟨fun hsuccess => ?_, fun hrefusal => ?_, fun before' hbefore' hmatches => ?_⟩
    · refine ⟨after, hafter, ?_⟩
      rw [InventoryMatches, ← hdatabase]
      exact migrate_succeeded hstarted.names_nodup hverifiable (houtcome.trans hsuccess)
    · refine ⟨before, after, hbefore, hafter, ?_⟩
      rw [← hdatabase]
      exact migrate_refused hstarted.names_nodup hverifiable (houtcome ▸ hrefusal)
    · obtain rfl : before = before' := Option.some.inj (hbefore.symm.trans hbefore')
      obtain ⟨hdone, hkept⟩ := migrate_of_match pg hmatches
      exact .inr ⟨houtcome.symm.trans hdone, after, hafter, hdatabase ▸ hkept⟩

omit [DecidableEq ι] in
theorem Inv.initial {sha256 : Text → Text} (hs : s.Initial sha256) : Inv pg s.database s where
  lock_iff := fun i => by
    rw [hs.locking i, hs.unlocked]
    exact iff_of_false id (by simp)
  process := fun i => by
    refine ⟨fun hholds => absurd hholds ?_, ?_, fun outcome hended => ?_⟩
    · rw [hs.locking i]
      exact id
    · rw [hs.locking i]
      trivial
    · rw [hs.locking i] at hended
      cases hended
  effects := .initial hs.no_effects

/-- **Migrate processes, in any number and order, with failures and crashes anywhere.**  Where
    every process that takes the lock finds a database it can verify: each migration's SQL takes
    effect once at most and together with its record; the runs are sound; and a process that finds
    a matching inventory as it takes the lock succeeds and changes nothing, as soon as it took all
    its statements undisturbed. -/
theorem migrations_sound (pg : Postgres Schema) (sha256 : Text → Text) {s t : State ι Schema}
    (hs : s.Initial sha256) (h : Reach (next pg) StartsVerifiable s t) :
    EffectsRecorded pg s.database t.database ∧
      (∀ i outcome, (t.processes i).phase = .ended outcome → RunSound (t.processes i) outcome) ∧
      ∀ i, (t.processes i).phase = .locking → t.lock = none →
        InventoryMatches (t.processes i).migrations t.database →
        ∀ l : List (Action ι), Undisturbed i l →
          5 + 5 * (t.processes i).migrations.length ≤ l.count (.proceed i) →
          let u := l.foldl (next pg) (next pg t (.proceed i))
          (u.processes i).phase = .ended .succeeded ∧
            ∃ after, (u.processes i).after = some after ∧ t.database.Unchanged after := by
  have hinv : Inv pg s.database t ∧ ∀ i, Started (t.processes i) := by
    refine h.invariant (I := fun u => Inv pg s.database u ∧ ∀ i, Started (u.processes i))
      ⟨.initial hs, fun i => ⟨?_, ?_⟩⟩ ?_
    · obtain ⟨migrationsDirectory, hloaded⟩ := hs.loaded i
      rw [hloaded]
      exact names_loadLocalMigrations sha256 migrationsDirectory
    · intro before hbefore
      rw [hs.not_begun i] at hbefore
      cases hbefore
    · rintro u a ⟨hu, hstarted⟩ hguard
      exact ⟨(next_stepped pg u a).inv hu, (next_stepped pg u a).started hstarted hguard⟩
  obtain ⟨hinv, hstarted⟩ := hinv
  refine ⟨hinv.effects, fun i outcome hended => (hinv.process i).runSound (hstarted i) hended, ?_⟩
  intro i hphase hlock hmatches l hl hcount
  have hnext : next pg t (.proceed i) = t.locked i := by
    simp only [next, hphase, if_pos hlock]
    rfl
  have hself : ((t.locked i).processes i) =
      { t.processes i with phase := .creating, before := some t.database } :=
    Function.update_self _ _ _
  obtain ⟨hdone, hkept⟩ := migrate_of_match pg hmatches
  have hrest : rest pg ((t.locked i).processes i).migrations (t.locked i).database
      ((t.locked i).processes i).phase =
        (.succeeded, (migrate pg (t.processes i).migrations t.database).2) := by
    rw [hself, ← hdone]
    rfl
  have hend := undisturbed_ends l (hnext ▸ (next_stepped pg t (.proceed i)).inv hinv)
    (by rw [hself]; trivial) hrest hl (by rw [hself]; exact hcount)
  rw [hnext]
  exact ⟨hend.1, _, hend.2, hkept⟩

/-- A release of two files. -/
def exampleDirectory : Directory where
  files := [(asciiText "001.sql", asciiText "CREATE TABLE a ()"),
    (asciiText "002.sql", asciiText "CREATE TABLE b ()")]
  names_nodup := by decide +kernel

/-- A server on which every SQL succeeds. -/
def examplePostgres : Postgres Unit where
  execute := fun _ _ => some ()
  nameLe := fun name name' => decide (name ≤ name')

/-- Processes of that release, about to begin, on a database whose records are given. -/
def exampleState (schemaMigrations : Option MigrationsTable) : State ℕ Unit where
  processes := fun _ =>
    { migrations := loadLocalMigrations id exampleDirectory
      phase := .locking
      before := none
      after := none }
  lock := none
  database := { schemaMigrations, schema := (), effects := [] }

theorem exampleState_initial (schemaMigrations : Option MigrationsTable) :
    (exampleState schemaMigrations).Initial id where
  loaded := fun _ => ⟨exampleDirectory, rfl⟩
  locking := fun _ => rfl
  not_begun := fun _ => rfl
  unlocked := rfl
  no_effects := rfl

/-- Only the second migration is recorded, and its file was another one then. -/
def exampleTable : MigrationsTable where
  rows := [{ name := asciiText "002.sql", checksum := some (asciiText "CREATE TABLE c ()") }]
  hasChecksum := true
  names_nodup := by decide +kernel
  null_checksum := fun h => absurd h (by decide)

/-- A process that takes all its statements, while another one crashes as it waits. -/
def exampleActions : List (Action ℕ) :=
  .proceed 0 :: .proceed 1 :: .crash 1 :: List.replicate 15 (.proceed 0)

theorem two_processes_migrate :
    let t := exampleActions.foldl (next examplePostgres) (exampleState none)
    (t.processes 0).phase = .ended .succeeded ∧ t.database.effects.length = 2 ∧
      EffectsRecorded examplePostgres (exampleState none).database t.database :=
  ⟨by decide +kernel, by decide +kernel,
    (migrations_sound examplePostgres id (exampleState_initial none)
      (Reach.ofTrace (show TraceOk (next examplePostgres) StartsVerifiable _ exampleActions by
        decide +kernel))).1⟩

/-- A run that is refused for a checksum after it applied an earlier migration. -/
theorem refused_after_applying :
    ¬ ∀ (s t : State ℕ Unit), s.Initial id → Reach (next examplePostgres) Always s t →
      ∀ i outcome, (t.processes i).phase = .ended outcome → outcome.IsRefusal →
        ∃ before after, (t.processes i).before = some before ∧
          (t.processes i).after = some after ∧ before.Unchanged after := by
  intro h
  obtain ⟨before, after, hbefore, hafter, hsame⟩ :=
    h (exampleState (some exampleTable)) _ (exampleState_initial _)
      (Reach.ofActions _ exampleActions) 0 (.checksumDiffers (asciiText "002.sql"))
      (by decide +kernel) trivial
  have hnone : (((exampleActions.foldl (next examplePostgres)
      (exampleState (some exampleTable))).processes 0).before.map (·.effects.length)) = some 0 := by
    decide +kernel
  have hone : (((exampleActions.foldl (next examplePostgres)
      (exampleState (some exampleTable))).processes 0).after.map (·.effects.length)) = some 1 := by
    decide +kernel
  rw [hbefore, Option.map_some, Option.some.injEq] at hnone
  rw [hafter, Option.map_some, Option.some.injEq, hsame.effects, hnone] at hone
  exact absurd hone (by decide)

end ResearchWorkbench.Migrations
