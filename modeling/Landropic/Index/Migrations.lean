import Landropic.Foundations.Result
import Landropic.Index.Database
import Mathlib.Order.Interval.Finset.Nat

set_option autoImplicit false

/-!
# Migrations of the index

A database records the versions of its schema that it has been through, and the highest of them is
its version. A manager applies the migrations that lead from there to its target, or rolls them
back, each in a transaction of its own.

## Main definitions

* `Migration.apply`, `Migration.rollback` — a migration, in either direction.
* `MigrationManager` — the migrations that are registered, and the target.
* `MigrationManager.validate`, `migrate` — its calls.
* `MigrationManager.ReachesTarget` — migrations lead to the target, or to the version of the last
  one that was completed, and back.

## Main results

* `MigrationManager.migrateAll_cases` — what a series of migrations leaves.
* `MigrationManager.reachesTarget_iff` — from which versions the target is reached.

## Design

What a statement does to the tables other than that of the versions is an input, and so are the
failures of a transaction, at every migration anew. Versions are numbers below `2 ^ 32`; the table
of versions may hold any integers.
-/

namespace Landropic

/-! ## Versions -/

/-- The two directions of a migration. -/
inductive Direction
  | up
  | down
  deriving DecidableEq

namespace Direction

/-- The rows of the versions after a migration in that direction. -/
def record (dir : Direction) (version : ℕ) (rows : Finset ℤ) : Finset ℤ :=
  match dir with
  | up => insert (version : ℤ) rows
  | down => rows.erase (version : ℤ)

/-- The version that a migration in that direction leads to. -/
def leadsTo : Direction → ℕ → ℕ
  | up, version => version
  | down, version => version - 1

end Direction

/-- The version of a database: the highest one that is recorded, if it is in range, or zero. -/
def currentVersion (rows : Finset ℤ) : Except IndexError ℕ :=
  if h : rows.Nonempty then
    let version := rows.max' h
    if 0 ≤ version ∧ version < 2 ^ 32 then .ok version.toNat
    else .error (.database s!"Integer {version} out of range at index 0")
  else .ok 0

/-- A database: the rows of the versions, and the other tables. -/
structure SchemaDatabase (Data : Type) where
  versions : Finset ℤ
  data : Data

/-- What SQLite does in a series of migrations: what the statements of a migration do, by their
number, and which steps of a transaction fail. -/
structure Sqlite (Data : Type) where
  executeBatch : ℕ → ℕ → Text → Data → Except String Data
  queryRow : Option String
  begin : ℕ → Option String
  execute : ℕ → Option String
  commit : ℕ → Option String

/-- A step that may fail. -/
def Sqlite.step (fault : Option String) : Except IndexError Unit :=
  fault.elim (.ok ()) fun e => .error (.database e)

/-! ## A migration -/

/-- A single database migration. -/
structure Migration where
  version : ℕ
  version_lt : version < 2 ^ 32
  description : Text
  up : List Text
  down : Option (List Text)

namespace Migration

section Run

variable {Data : Type} (sqlite : Sqlite Data) (migration : Migration)

/-- Execute statements, the first of which has that number. -/
def executeAll : ℕ → List Text → Data → Except IndexError Data
  | _, [], data => .ok data
  | k, statement :: rest, data =>
    match sqlite.executeBatch migration.version k statement data with
    | .error e => .error (.database e)
    | .ok data => executeAll (k + 1) rest data

/-- A transaction, which is rolled back if it fails. -/
def transaction (body : SchemaDatabase Data → Except IndexError (SchemaDatabase Data))
    (db : SchemaDatabase Data) : Except IndexError Unit × SchemaDatabase Data :=
  let result := do
    Sqlite.step (sqlite.begin migration.version)
    let db ← body db
    Sqlite.step (sqlite.commit migration.version)
    .ok db
  match result with
  | .ok db' => (.ok (), db')
  | .error e => (.error e, db)

/-- Apply this migration to a database connection. -/
def apply : SchemaDatabase Data → Except IndexError Unit × SchemaDatabase Data :=
  migration.transaction sqlite fun db => do
    let data ← migration.executeAll sqlite 0 migration.up db.data
    Sqlite.step (sqlite.execute migration.version)
    if (migration.version : ℤ) ∈ db.versions then
      .error (.database "UNIQUE constraint failed: schema_version.version")
    .ok ⟨insert (migration.version : ℤ) db.versions, data⟩

/-- Rollback this migration from a database connection. -/
def rollback (db : SchemaDatabase Data) : Except IndexError Unit × SchemaDatabase Data :=
  match migration.down with
  | none =>
    (.error (.databaseError s!"Migration {migration.version} does not support rollback"), db)
  | some down =>
    migration.transaction sqlite (fun db => do
      let data ← migration.executeAll sqlite 0 down.reverse db.data
      Sqlite.step (sqlite.execute migration.version)
      .ok ⟨db.versions.erase (migration.version : ℤ), data⟩) db

/-- The migration in a direction. -/
def run (dir : Direction) (db : SchemaDatabase Data) :
    Except IndexError Unit × SchemaDatabase Data :=
  match dir with
  | .up => migration.apply sqlite db
  | .down => migration.rollback sqlite db

/-- The statements in a direction, in the order in which they are executed. -/
def statements : Direction → Option (List Text)
  | .up => some migration.up
  | .down => migration.down.map List.reverse

/-- A completed migration: all of its statements have been executed, and its version recorded. -/
def Completed (dir : Direction) (db db' : SchemaDatabase Data) : Prop :=
  (∃ statements, migration.statements dir = some statements ∧
    migration.executeAll sqlite 0 statements db.data = .ok db'.data) ∧
  db'.versions = dir.record migration.version db.versions

end Run

end Migration

/-! ## The manager -/

/-- Database migration manager. -/
structure MigrationManager where
  migrations : HashMap ℕ Migration
  targetVersion : ℕ
  version_eq : ∀ {v m}, migrations.lookup v = some m → m.version = v

namespace MigrationManager

/-- Create a new migration manager. No migrations are registered in this release. -/
def new (targetVersion : ℕ) : MigrationManager := ⟨∅, targetVersion, by simp⟩

section Calls

variable {Data : Type} (manager : MigrationManager) (sqlite : Sqlite Data)

/-- Add a migration to the manager. -/
def addMigration (migration : Migration) : MigrationManager where
  migrations := manager.migrations.insert migration.version migration
  targetVersion := manager.targetVersion
  version_eq {v m} h := by
    obtain ⟨rfl, rfl⟩ | ⟨-, h⟩ := HashMap.lookup_insert_cases h
    · rfl
    · exact manager.version_eq h

/-- Check if database needs migration. -/
def needsMigration (rows : Finset ℤ) : Except IndexError Bool := do
  let current ← currentVersion rows
  .ok (current ≠ manager.targetVersion)

/-- The registered versions between two versions, in the order in which they are migrated. -/
def between (dir : Direction) (source target : ℕ) : List ℕ :=
  match dir with
  | .up => (manager.migrations.keys.filter fun v => source < v ∧ v ≤ target).sort (· ≤ ·)
  | .down => (manager.migrations.keys.filter fun v => v ≤ source ∧ target < v).sort (· ≥ ·)

/-- Migrate through all of these versions. -/
def migrateAll (dir : Direction) : List ℕ → SchemaDatabase Data →
    Except IndexError Unit × SchemaDatabase Data
  | [], db => (.ok (), db)
  | version :: rest, db =>
    match manager.migrations.lookup version with
    | none => (.error (.databaseError s!"Missing migration for version {version}"), db)
    | some migration =>
      match migration.run sqlite dir db with
      | (.error e, db) => (.error e, db)
      | (.ok (), db) => migrateAll dir rest db

/-- The direction from one version to another one. -/
def direction (source target : ℕ) : Direction := if target < source then .down else .up

/-- Migrate database to target version. -/
def migrate (db : SchemaDatabase Data) : Except IndexError Unit × SchemaDatabase Data :=
  match Sqlite.step sqlite.queryRow, currentVersion db.versions with
  | .error e, _ => (.error e, db)
  | .ok (), .error e => (.error e, db)
  | .ok (), .ok current =>
    if current = manager.targetVersion then (.ok (), db)
    else
      let dir := direction current manager.targetVersion
      manager.migrateAll sqlite dir (manager.between dir current manager.targetVersion) db

/-- Check for version gaps, from the version that is expected first. -/
def checkGaps : ℕ → List ℕ → Except IndexError Unit
  | _, [] => .ok ()
  | expected, version :: rest =>
    if version ≠ expected then
      .error (.databaseError s!"Migration version gap: expected {expected}, found {version}")
    else checkGaps (expected + 1) rest

/-- Validate migration consistency. -/
def validate : Except IndexError Unit := do
  checkGaps 1 (manager.migrations.keys.sort (· ≤ ·))
  if manager.migrations.keys ≠ ∅ ∧ manager.targetVersion ∉ manager.migrations.keys then
    .error (.databaseError s!"Target version {manager.targetVersion} not found in migrations")
  .ok ()

/-- Migrations that are completed one after the other. -/
inductive CompletedAll (dir : Direction) :
    List ℕ → SchemaDatabase Data → SchemaDatabase Data → Prop
  | nil (db : SchemaDatabase Data) : CompletedAll dir [] db db
  | cons {version : ℕ} {rest : List ℕ} {migration : Migration}
    {db db₁ db' : SchemaDatabase Data} : manager.migrations.lookup version = some migration →
    migration.Completed sqlite dir db db₁ → CompletedAll dir rest db₁ db' →
    CompletedAll dir (version :: rest) db db'

end Calls

/-- **Migrations reach their target** from some version: where all succeed, the target is the
version; where one fails, all before it were completed, the version is where the last of them leads
to, and the one that fails has no effect; and back down from the target the version is the first one
again. -/
structure ReachesTarget (manager : MigrationManager) (rows : Finset ℤ) (current : ℕ) : Prop where
  ok : ∀ {Data : Type} (sqlite : Sqlite Data) (data : Data) (db' : SchemaDatabase Data),
    manager.migrate sqlite ⟨rows, data⟩ = (.ok (), db') →
      currentVersion db'.versions = .ok manager.targetVersion ∧
        manager.needsMigration db'.versions = .ok false
  failed : ∀ {Data : Type} (sqlite : Sqlite Data) (data : Data) (e : IndexError)
    (db' : SchemaDatabase Data), sqlite.queryRow = none →
      manager.migrate sqlite ⟨rows, data⟩ = (.error e, db') →
        let dir := direction current manager.targetVersion
        ∃ done version rest migration,
          manager.between dir current manager.targetVersion = done ++ version :: rest ∧
          manager.CompletedAll sqlite dir done ⟨rows, data⟩ db' ∧
          manager.migrations.lookup version = some migration ∧
          (migration.run sqlite dir db').1 = .error e ∧
          currentVersion db'.versions = .ok ((done.getLast?.map dir.leadsTo).getD current)
  back : ∀ {Data : Type} (there back : Sqlite Data) (data : Data) (db₁ db₂ : SchemaDatabase Data)
    (origin : MigrationManager), current < manager.targetVersion →
      origin.migrations = manager.migrations → origin.targetVersion = current →
      manager.migrate there ⟨rows, data⟩ = (.ok (), db₁) →
      origin.migrate back db₁ = (.ok (), db₂) → currentVersion db₂.versions = .ok current

end MigrationManager

/-! ## What is recorded -/

section Versions

variable {rows : Finset ℤ} {c v : ℕ}

/-- **The version of a database** is the highest one that is recorded. -/
theorem currentVersion_eq_ok_iff : currentVersion rows = .ok c ↔
    c < 2 ^ 32 ∧ (rows = ∅ ∧ c = 0 ∨ (c : ℤ) ∈ rows ∧ ∀ v ∈ rows, v ≤ (c : ℤ)) := by
  rw [currentVersion]
  rcases rows.eq_empty_or_nonempty with rfl | hrows
  · rw [dif_neg Finset.not_nonempty_empty, Except.ok.injEq]
    constructor
    · rintro rfl
      exact ⟨by decide, .inl ⟨rfl, rfl⟩⟩
    · rintro ⟨-, ⟨-, rfl⟩ | ⟨hmem, -⟩⟩
      · rfl
      · exact absurd hmem (Finset.notMem_empty _)
  · rw [dif_pos hrows]
    have hmax := rows.max'_mem hrows
    constructor
    · intro h
      dsimp only at h
      split_ifs at h with hrange
      obtain rfl := Except.ok.inj h
      have hcast : ((rows.max' hrows).toNat : ℤ) = rows.max' hrows := Int.toNat_of_nonneg hrange.1
      refine ⟨by omega, .inr ⟨hcast.symm ▸ hmax, fun v hv => ?_⟩⟩
      rw [hcast]
      exact rows.le_max' v hv
    · rintro ⟨hlt, ⟨rfl, -⟩ | ⟨hmem, hle⟩⟩
      · exact absurd hrows Finset.not_nonempty_empty
      · have heq : rows.max' hrows = c := le_antisymm (hle _ hmax) (rows.le_max' _ hmem)
        dsimp only
        rw [heq, if_pos (by omega), Int.toNat_natCast]

lemma le_of_currentVersion (h : currentVersion rows = .ok c) {x : ℤ} (hx : x ∈ rows) :
    x ≤ (c : ℤ) := by
  obtain ⟨-, ⟨rfl, -⟩ | ⟨-, hle⟩⟩ := currentVersion_eq_ok_iff.mp h
  · exact absurd hx (Finset.notMem_empty _)
  · exact hle x hx

lemma mem_of_currentVersion (h : currentVersion rows = .ok c) (hc : c ≠ 0) : (c : ℤ) ∈ rows := by
  obtain ⟨-, ⟨-, rfl⟩ | ⟨hmem, -⟩⟩ := currentVersion_eq_ok_iff.mp h
  · exact absurd rfl hc
  · exact hmem

/-- The rows after migrations through some versions. -/
def Direction.recordAll (dir : Direction) (versions : List ℕ) (rows : Finset ℤ) : Finset ℤ :=
  versions.foldl (fun rows v => dir.record v rows) rows

lemma mem_recordAll_up {versions : List ℕ} {x : ℤ} :
    x ∈ Direction.up.recordAll versions rows ↔ x ∈ rows ∨ ∃ v ∈ versions, (v : ℤ) = x := by
  induction versions generalizing rows with
  | nil => simp [Direction.recordAll]
  | cons v versions ih =>
    rw [Direction.recordAll, List.foldl_cons, ← Direction.recordAll, ih, Direction.record,
      Finset.mem_insert, List.exists_mem_cons_iff, or_assoc, or_left_comm, eq_comm]

lemma mem_recordAll_down {versions : List ℕ} {x : ℤ} :
    x ∈ Direction.down.recordAll versions rows ↔ x ∈ rows ∧ ∀ v ∈ versions, (v : ℤ) ≠ x := by
  induction versions generalizing rows with
  | nil => simp [Direction.recordAll]
  | cons v versions ih =>
    rw [Direction.recordAll, List.foldl_cons, ← Direction.recordAll, ih, Direction.record,
      Finset.mem_erase, List.forall_mem_cons, and_assoc, and_left_comm, ne_comm]

lemma currentVersion_up (h : currentVersion rows = .ok c) {j : ℕ} (hj : c + j < 2 ^ 32) :
    currentVersion (Direction.up.recordAll (List.range' (c + 1) j) rows) = .ok (c + j) := by
  rcases Nat.eq_zero_or_pos j with rfl | hpos
  · exact h
  refine currentVersion_eq_ok_iff.mpr ⟨hj, .inr ⟨?_, fun x hx => ?_⟩⟩
  · exact mem_recordAll_up.mpr (.inr ⟨c + j, List.mem_range'_1.mpr (by omega), rfl⟩)
  · rcases mem_recordAll_up.mp hx with hold | ⟨v, hv, rfl⟩
    · have hle := le_of_currentVersion h hold
      omega
    · have hv := List.mem_range'_1.mp hv
      omega

lemma currentVersion_down (h : currentVersion rows = .ok c) {j : ℕ} (hj : j ≤ c)
    (hmem : ((c - j : ℕ) : ℤ) ∈ rows) :
    currentVersion (Direction.down.recordAll (List.range' (c - j + 1) j).reverse rows) =
      .ok (c - j) := by
  have hlt := (currentVersion_eq_ok_iff.mp h).1
  refine currentVersion_eq_ok_iff.mpr ⟨by omega, .inr ⟨?_, fun x hx => ?_⟩⟩
  · refine mem_recordAll_down.mpr ⟨hmem, fun v hv => ?_⟩
    have hv := List.mem_range'_1.mp (List.mem_reverse.mp hv)
    omega
  · obtain ⟨hx, hne⟩ := mem_recordAll_down.mp hx
    have hle := le_of_currentVersion h hx
    by_contra hlt'
    refine hne x.toNat (List.mem_reverse.mpr (List.mem_range'_1.mpr ?_)) ?_
    · omega
    · omega

end Versions

/-! ## What migrations leave -/

section Series

variable {Data : Type} {manager : MigrationManager} {sqlite : Sqlite Data} {dir : Direction}
  {db db' : SchemaDatabase Data} {migration : Migration} {versions : List ℕ}

lemma Migration.transaction_cases
    (body : SchemaDatabase Data → Except IndexError (SchemaDatabase Data)) :
    (∃ e, migration.transaction sqlite body db = (.error e, db)) ∨
      ∃ db', body db = .ok db' ∧ migration.transaction sqlite body db = (.ok (), db') := by
  rw [transaction]
  cases hbegin : Sqlite.step (sqlite.begin migration.version) with
  | error e => exact .inl ⟨e, rfl⟩
  | ok _ =>
    cases hbody : body db with
    | error e => exact .inl ⟨e, rfl⟩
    | ok db' =>
      cases hcommit : Sqlite.step (sqlite.commit migration.version) with
      | error e => exact .inl ⟨e, rfl⟩
      | ok _ => exact .inr ⟨db', rfl, rfl⟩

/-- **A migration is completed or has no effect.** -/
theorem Migration.run_cases (migration : Migration) (sqlite : Sqlite Data) (dir : Direction)
    (db : SchemaDatabase Data) :
    (∃ e, migration.run sqlite dir db = (.error e, db)) ∨
      ∃ db', migration.run sqlite dir db = (.ok (), db') ∧
        migration.Completed sqlite dir db db' := by
  cases dir with
  | up =>
    show (∃ e, migration.apply sqlite db = (.error e, db)) ∨
      ∃ db', migration.apply sqlite db = (.ok (), db') ∧ _
    refine (Migration.transaction_cases _).imp_right ?_
    rintro ⟨db', hbody, heq⟩
    refine ⟨db', heq, ?_⟩
    obtain ⟨data, hdata, hbody⟩ := Except.bind_eq_ok.mp hbody
    obtain ⟨-, -, hbody⟩ := Except.bind_eq_ok.mp hbody
    split at hbody
    · cases hbody
    · obtain rfl := Except.ok.inj hbody
      exact ⟨⟨migration.up, rfl, hdata⟩, rfl⟩
  | down =>
    rw [run, rollback]
    cases hdown : migration.down with
    | none => exact .inl ⟨_, rfl⟩
    | some down =>
      refine (Migration.transaction_cases _).imp_right ?_
      rintro ⟨db', hbody, heq⟩
      refine ⟨db', heq, ?_⟩
      obtain ⟨data, hdata, hbody⟩ := Except.bind_eq_ok.mp hbody
      obtain ⟨-, -, hbody⟩ := Except.bind_eq_ok.mp hbody
      obtain rfl := Except.ok.inj hbody
      exact ⟨⟨down.reverse, by rw [statements, hdown]; rfl, hdata⟩, rfl⟩

namespace MigrationManager

lemma CompletedAll.versions_eq (h : manager.CompletedAll sqlite dir versions db db') :
    db'.versions = dir.recordAll versions db.versions := by
  induction h with
  | nil => rfl
  | @cons version rest migration db db₁ db' hlookup hcompleted _ ih =>
    rw [ih, hcompleted.2, manager.version_eq hlookup]
    rfl

/-- **A series of registered migrations** is completed, or fails at one of them, all before it
having been completed. -/
theorem migrateAll_cases (hregistered : ∀ v ∈ versions, v ∈ manager.migrations.keys)
    (db : SchemaDatabase Data) :
    (∃ db', manager.migrateAll sqlite dir versions db = (.ok (), db') ∧
      manager.CompletedAll sqlite dir versions db db') ∨
    ∃ e db' done version rest migration,
      manager.migrateAll sqlite dir versions db = (.error e, db') ∧
      versions = done ++ version :: rest ∧ manager.CompletedAll sqlite dir done db db' ∧
      manager.migrations.lookup version = some migration ∧
      (migration.run sqlite dir db').1 = .error e := by
  induction versions generalizing db with
  | nil => exact .inl ⟨db, rfl, .nil db⟩
  | cons version rest ih =>
    obtain ⟨hversion, hrest⟩ := List.forall_mem_cons.mp hregistered
    obtain ⟨migration, hlookup⟩ := Finmap.mem_iff.mp (Finmap.mem_keys.mp hversion)
    rw [migrateAll, hlookup]
    dsimp only
    rcases migration.run_cases sqlite dir db with ⟨e, hrun⟩ | ⟨db₁, hrun, hcompleted⟩
    · rw [hrun]
      exact .inr ⟨e, db, [], version, rest, migration, rfl, rfl, .nil db, hlookup, by rw [hrun]⟩
    · rw [hrun]
      rcases ih hrest db₁ with ⟨db', heq, hall⟩ |
        ⟨e, db', done, failing, rest', migration', heq, rfl, hall, hlookup', hfail⟩
      · exact .inl ⟨db', heq, .cons hlookup hcompleted hall⟩
      · exact .inr ⟨e, db', version :: done, failing, rest', migration', heq, rfl,
          .cons hlookup hcompleted hall, hlookup', hfail⟩

/-! ## Which versions are registered -/

lemma checkGaps_eq_ok_iff {expected : ℕ} : checkGaps expected versions = .ok () ↔
    versions = List.range' expected versions.length := by
  induction versions generalizing expected with
  | nil => exact iff_of_true rfl rfl
  | cons version rest ih =>
    rw [checkGaps, List.length_cons, List.range'_succ, List.cons.injEq]
    split
    · next hne => exact iff_of_false nofun fun h => hne h.1
    · next heq =>
      rw [ih]
      exact (and_iff_right (not_not.mp heq)).symm

lemma sort_Icc (n : ℕ) : (Finset.Icc 1 n).sort (· ≤ ·) = List.range' 1 n := by
  have hset : Finset.Icc 1 n = (List.range' 1 n).toFinset := by
    ext v
    rw [Finset.mem_Icc, List.mem_toFinset, List.mem_range'_1]
    omega
  rw [hset, List.toFinset_sort _ (List.nodup_range' 1)]
  exact (List.pairwise_lt_range' 1).imp Nat.le_of_lt

/-- **Which managers are valid**: the registered versions have no gaps, and the target is one of
them, if there are any. -/
theorem validate_eq_ok_iff : manager.validate = .ok () ↔
    ∃ n, manager.migrations.keys = Finset.Icc 1 n ∧
      (manager.migrations.keys ≠ ∅ → manager.targetVersion ∈ manager.migrations.keys) := by
  constructor
  · intro h
    obtain ⟨⟨⟩, hgaps, htarget⟩ := Except.bind_eq_ok.mp h
    refine ⟨manager.migrations.keys.card, ?_, fun hne => ?_⟩
    · have hsort := checkGaps_eq_ok_iff.mp hgaps
      ext v
      rw [← Finset.mem_sort (· ≤ ·), hsort, List.mem_range'_1, Finset.length_sort, Finset.mem_Icc]
      omega
    · by_contra hnot
      rw [if_pos ⟨hne, hnot⟩] at htarget
      cases htarget
  · rintro ⟨n, hkeys, htarget⟩
    refine Except.bind_eq_ok.mpr ⟨(), ?_, if_neg fun h => h.2 (htarget h.1)⟩
    rw [checkGaps_eq_ok_iff, hkeys, sort_Icc, List.length_range']

variable {source target v : ℕ}

lemma mem_between_up : v ∈ manager.between .up source target ↔
    v ∈ manager.migrations.keys ∧ source < v ∧ v ≤ target := by
  rw [between, Finset.mem_sort, Finset.mem_filter]

lemma mem_between_down : v ∈ manager.between .down source target ↔
    v ∈ manager.migrations.keys ∧ v ≤ source ∧ target < v := by
  rw [between, Finset.mem_sort, Finset.mem_filter]

lemma registered_of_mem_between (h : v ∈ manager.between dir source target) :
    v ∈ manager.migrations.keys := by
  cases dir with
  | up => exact (mem_between_up.mp h).1
  | down => exact (mem_between_down.mp h).1

/-- The migrations between two versions are completed, or fail at one of them. -/
lemma migrateBetween_cases (manager : MigrationManager) (sqlite : Sqlite Data) (dir : Direction)
    (source target : ℕ) (db : SchemaDatabase Data) :
    (∃ db', manager.migrateAll sqlite dir (manager.between dir source target) db = (.ok (), db') ∧
      manager.CompletedAll sqlite dir (manager.between dir source target) db db') ∨
    ∃ e db' done version rest migration,
      manager.migrateAll sqlite dir (manager.between dir source target) db = (.error e, db') ∧
      manager.between dir source target = done ++ version :: rest ∧
      manager.CompletedAll sqlite dir done db db' ∧
      manager.migrations.lookup version = some migration ∧
      (migration.run sqlite dir db').1 = .error e :=
  migrateAll_cases (fun _ hv => registered_of_mem_between hv) db

lemma between_up_eq {n : ℕ} (hkeys : manager.migrations.keys = Finset.Icc 1 n)
    (htarget : target ≤ n) :
    manager.between .up source target = List.range' (source + 1) (target - source) := by
  have hset : (manager.migrations.keys.filter fun v => source < v ∧ v ≤ target) =
      (List.range' (source + 1) (target - source)).toFinset := by
    ext v
    rw [Finset.mem_filter, hkeys, Finset.mem_Icc, List.mem_toFinset, List.mem_range'_1]
    omega
  rw [between, hset, List.toFinset_sort _ (List.nodup_range' 1)]
  exact (List.pairwise_lt_range' 1).imp Nat.le_of_lt

lemma between_down_eq {n : ℕ} (hkeys : manager.migrations.keys = Finset.Icc 1 n)
    (hsource : source ≤ n) :
    manager.between .down source target = (List.range' (target + 1) (source - target)).reverse := by
  have hset : (manager.migrations.keys.filter fun v => v ≤ source ∧ target < v) =
      (List.range' (target + 1) (source - target)).reverse.toFinset := by
    ext v
    rw [Finset.mem_filter, hkeys, Finset.mem_Icc, List.mem_toFinset, List.mem_reverse,
      List.mem_range'_1]
    omega
  rw [between, hset, List.toFinset_sort _ (List.nodup_reverse.mpr (List.nodup_range' 1)),
    List.pairwise_reverse]
  exact (List.pairwise_lt_range' 1).imp Nat.le_of_lt

/-! ## Where the target is reached -/

variable {rows : Finset ℤ} {current target n : ℕ} {done tail : List ℕ}

/-- What a database is migrated through. -/
lemma migrate_eq (hcurrent : currentVersion db.versions = .ok current)
    (hne : current ≠ manager.targetVersion) (hquery : sqlite.queryRow = none) :
    manager.migrate sqlite db = manager.migrateAll sqlite (direction current manager.targetVersion)
      (manager.between (direction current manager.targetVersion) current manager.targetVersion)
      db := by
  rw [migrate, hcurrent, hquery]
  exact if_neg hne

/-- A successful migration has been through all versions on its way. -/
lemma completedAll_of_migrate (hcurrent : currentVersion db.versions = .ok current)
    (hne : current ≠ manager.targetVersion) (h : manager.migrate sqlite db = (.ok (), db')) :
    manager.CompletedAll sqlite (direction current manager.targetVersion)
      (manager.between (direction current manager.targetVersion) current manager.targetVersion)
      db db' := by
  cases hquery : sqlite.queryRow with
  | some e =>
    rw [migrate, hquery] at h
    cases h
  | none =>
    rw [migrate_eq hcurrent hne hquery] at h
    rcases manager.migrateBetween_cases sqlite _ current manager.targetVersion db with
      ⟨db₁, heq, hall⟩ | ⟨e, db₁, done, version, rest, migration, heq, -⟩
    · rw [heq] at h
      obtain rfl := (Prod.mk.inj h).2
      exact hall
    · rw [heq] at h
      cases h

/-- The version after some of the migrations on the way up. -/
lemma currentVersion_prefix_up (hcurrent : currentVersion rows = .ok current)
    (htarget : target < 2 ^ 32) (hle : current ≤ target)
    (hway : List.range' (current + 1) (target - current) = done ++ tail) :
    currentVersion (Direction.up.recordAll done rows) =
      .ok ((done.getLast?.map Direction.up.leadsTo).getD current) := by
  obtain ⟨j, hj, rfl, -⟩ := List.range'_eq_append_iff.mp hway
  rw [currentVersion_up hcurrent (by omega), List.getLast?_range']
  split
  · next hzero => rw [hzero]; rfl
  · show _ = Except.ok (current + 1 + j - 1)
    congr 1
    omega

/-- The version after some of the migrations on the way down, if those before it are recorded. -/
lemma currentVersion_prefix_down (hcurrent : currentVersion rows = .ok current) (hpos : 0 < target)
    (hlt : target < current) (hmem : ∀ v, target ≤ v → v < current → (v : ℤ) ∈ rows)
    (hway : (List.range' (target + 1) (current - target)).reverse = done ++ tail) :
    currentVersion (Direction.down.recordAll done rows) =
      .ok ((done.getLast?.map Direction.down.leadsTo).getD current) := by
  have hway' : List.range' (target + 1) (current - target) = tail.reverse ++ done.reverse := by
    rw [← List.reverse_append, ← hway, List.reverse_reverse]
  obtain ⟨k, hk, -, hdone⟩ := List.range'_eq_append_iff.mp hway'
  obtain ⟨j, hj⟩ : ∃ j, j = current - target - k := ⟨_, rfl⟩
  have hstart : target + 1 + k * 1 = current - j + 1 := by omega
  rw [hstart, ← hj, List.reverse_eq_iff] at hdone
  have hrow : ((current - j : ℕ) : ℤ) ∈ rows := by
    rcases Nat.eq_zero_or_pos j with rfl | hjpos
    · exact mem_of_currentVersion hcurrent (by omega)
    · exact hmem _ (by omega) (by omega)
  rw [hdone, currentVersion_down hcurrent (by omega) hrow, List.getLast?_reverse, List.head?_range']
  split
  · next hzero => rw [hzero]; rfl
  · rfl

/-- A valid manager's condition on the rows and the version: there is nothing to do, or there are
migrations and they lead up, or down from a registered version, with all versions on the way
recorded. -/
def CanReach (manager : MigrationManager) (rows : Finset ℤ) (current : ℕ) : Prop :=
  current = manager.targetVersion ∨ manager.migrations.keys ≠ ∅ ∧
    (current < manager.targetVersion ∨ current ∈ manager.migrations.keys ∧
      ∀ v, manager.targetVersion ≤ v → v < current → (v : ℤ) ∈ rows)

lemma lt_of_registered (h : v ∈ manager.migrations.keys) : v < 2 ^ 32 := by
  obtain ⟨migration, hlookup⟩ := Finmap.mem_iff.mp (Finmap.mem_keys.mp h)
  rw [← manager.version_eq hlookup]
  exact migration.version_lt

/-- Where the target can be reached, each migration on the way leads to the version that it should,
and the last one to the target. -/
lemma CanReach.leads (h : manager.CanReach rows current)
    (hcurrent : currentVersion rows = .ok current) (hne : current ≠ manager.targetVersion)
    (hkeys : manager.migrations.keys = Finset.Icc 1 n)
    (htarget : manager.migrations.keys ≠ ∅ → manager.targetVersion ∈ manager.migrations.keys) :
    let dir := direction current manager.targetVersion
    (∀ done tail, manager.between dir current manager.targetVersion = done ++ tail →
      currentVersion (dir.recordAll done rows) =
        .ok ((done.getLast?.map dir.leadsTo).getD current)) ∧
    ((manager.between dir current manager.targetVersion).getLast?.map dir.leadsTo).getD current =
      manager.targetVersion := by
  obtain ⟨hsome, hway⟩ := h.resolve_left hne
  have hregistered := htarget hsome
  have hlt := lt_of_registered hregistered
  rw [hkeys, Finset.mem_Icc] at hregistered
  rcases Nat.lt_or_gt_of_ne hne with hup | hdown
  · have hdir : direction current manager.targetVersion = .up := if_neg (by omega)
    rw [hdir]
    dsimp only
    rw [between_up_eq hkeys hregistered.2]
    refine ⟨fun done tail hdone => currentVersion_prefix_up hcurrent hlt hup.le hdone, ?_⟩
    rw [List.getLast?_range', if_neg (by omega)]
    show current + 1 + (manager.targetVersion - current) - 1 = manager.targetVersion
    omega
  · obtain ⟨hsource, hrows⟩ := hway.resolve_left (by omega)
    rw [hkeys, Finset.mem_Icc] at hsource
    have hdir : direction current manager.targetVersion = .down := if_pos hdown
    rw [hdir]
    dsimp only
    rw [between_down_eq hkeys hsource.2]
    refine ⟨fun done tail hdone =>
      currentVersion_prefix_down hcurrent hregistered.1 hdown hrows hdone, ?_⟩
    rw [List.getLast?_reverse, List.head?_range', if_neg (by omega)]
    rfl

lemma recordAll_back (hcurrent : currentVersion rows = .ok current) {up down : List ℕ}
    (hsame : ∀ v, v ∈ up ↔ v ∈ down) (habove : ∀ v ∈ down, current < v) :
    Direction.down.recordAll down (Direction.up.recordAll up rows) = rows := by
  ext x
  rw [mem_recordAll_down, mem_recordAll_up]
  constructor
  · rintro ⟨hold | ⟨v, hv, heq⟩, hne⟩
    · exact hold
    · exact absurd heq (hne v ((hsame v).mp hv))
  · intro hx
    have hle := le_of_currentVersion hcurrent hx
    refine ⟨.inl hx, fun v hv heq => ?_⟩
    have hlt := habove v hv
    omega

/-- **Where the target can be reached, it is.** -/
lemma CanReach.reachesTarget (h : manager.CanReach rows current)
    (hvalid : manager.validate = .ok ()) (hcurrent : currentVersion rows = .ok current) :
    manager.ReachesTarget rows current := by
  obtain ⟨n, hkeys, htarget⟩ := validate_eq_ok_iff.mp hvalid
  have hok : ∀ {Data : Type} (sqlite : Sqlite Data) (data : Data) (db' : SchemaDatabase Data),
      manager.migrate sqlite ⟨rows, data⟩ = (.ok (), db') →
        currentVersion db'.versions = .ok manager.targetVersion := by
    intro Data sqlite data db' hmigrate
    by_cases hne : current = manager.targetVersion
    · rw [migrate] at hmigrate
      split at hmigrate
      · cases hmigrate
      · cases hmigrate
      · next current' _ hcurrent' =>
        obtain rfl := Except.ok.inj (hcurrent.symm.trans hcurrent')
        rw [if_pos hne] at hmigrate
        obtain rfl := (Prod.mk.inj hmigrate).2
        rw [← hne]
        exact hcurrent
    · obtain ⟨hinitial, hlast⟩ := h.leads hcurrent hne hkeys htarget
      rw [(completedAll_of_migrate hcurrent hne hmigrate).versions_eq,
        hinitial _ [] (List.append_nil _).symm, hlast]
  refine ⟨fun {Data} sqlite data db' hmigrate => ?_,
    fun {Data} sqlite data e db' hquery hmigrate => ?_,
    fun {Data} there back data db₁ db₂ origin hlt hsame horigin hthere hback => ?_⟩
  · have hversion := hok sqlite data db' hmigrate
    refine ⟨hversion, ?_⟩
    rw [needsMigration, hversion]
    exact congrArg Except.ok (decide_eq_false (not_not.mpr rfl))
  · have hne : current ≠ manager.targetVersion := by
      intro heq
      rw [migrate, hcurrent, hquery] at hmigrate
      exact absurd ((if_pos heq).symm.trans hmigrate) (by simp)
    rw [migrate_eq hcurrent hne hquery] at hmigrate
    rcases manager.migrateBetween_cases sqlite _ current manager.targetVersion ⟨rows, data⟩ with
      ⟨db₁, heq, -⟩ | ⟨e', db₁, done, version, rest, migration, heq, hway, hall, hlookup, hfail⟩
    · rw [heq] at hmigrate
      cases hmigrate
    · rw [heq] at hmigrate
      cases hmigrate
      refine ⟨done, version, rest, migration, hway, hall, hlookup, hfail, ?_⟩
      rw [hall.versions_eq]
      exact (h.leads hcurrent hne hkeys htarget).1 done (version :: rest) hway
  · have hmiddle := hok there data db₁ hthere
    have hup := (completedAll_of_migrate hcurrent hlt.ne hthere).versions_eq
    have hne : manager.targetVersion ≠ origin.targetVersion := by omega
    have hdown := (completedAll_of_migrate hmiddle hne hback).versions_eq
    rw [direction, if_neg (by omega)] at hup
    rw [direction, if_pos (by omega), horigin, hup] at hdown
    rw [hdown, recordAll_back hcurrent _ fun v hv => (mem_between_down.mp hv).2.2]
    · exact hcurrent
    · intro v
      rw [mem_between_up, mem_between_down, hsame]
      tauto

/-! ## Where it is not -/

/-- A migration that does nothing, in either direction. -/
def empty (migration : Migration) : Migration := { migration with up := [], down := some [] }

/-- A manager of the same versions, whose migrations do nothing. -/
def emptied (manager : MigrationManager) : MigrationManager where
  migrations := manager.migrations.mapValues empty
  targetVersion := manager.targetVersion
  version_eq {v m} h := by
    rw [HashMap.lookup_mapValues, Option.map_eq_some_iff] at h
    obtain ⟨migration, hlookup, rfl⟩ := h
    show migration.version = v
    exact manager.version_eq hlookup

lemma keys_emptied (manager : MigrationManager) :
    manager.emptied.migrations.keys = manager.migrations.keys := by
  ext v
  rw [Finmap.mem_keys, Finmap.mem_keys, ← Finmap.lookup_isSome, ← Finmap.lookup_isSome, emptied,
    HashMap.lookup_mapValues, Option.isSome_map]

/-- A database of which one transaction cannot be begun, if any. -/
def faultAt (fault : Option ℕ) : Sqlite Unit where
  executeBatch _ _ _ data := .ok data
  queryRow := none
  begin version := if fault = some version then some "disk I/O error" else none
  execute _ := none
  commit _ := none

/-- A migration down that does nothing succeeds, unless its transaction cannot be begun. -/
lemma run_empty_down (migration : Migration) (fault : Option ℕ) (db : SchemaDatabase Unit) :
    (empty migration).run (faultAt fault) .down db =
      if fault = some migration.version then (.error (.database "disk I/O error"), db)
      else (.ok (), ⟨db.versions.erase (migration.version : ℤ), db.data⟩) := by
  rw [Migration.run, Migration.rollback]
  show Migration.transaction _ _ _ _ = _
  rw [Migration.transaction]
  by_cases hfault : fault = some migration.version
  · have hbegin : (faultAt fault).begin (empty migration).version = some "disk I/O error" :=
      if_pos hfault
    rw [if_pos hfault, hbegin]
    rfl
  · have hbegin : (faultAt fault).begin (empty migration).version = none := if_neg hfault
    rw [if_neg hfault, hbegin]
    rfl

lemma run_emptied_eq_ok_iff (hlookup : manager.emptied.migrations.lookup v = some migration)
    (fault : Option ℕ) (db : SchemaDatabase Unit) :
    (migration.run (faultAt fault) .down db).1 = .ok () ↔ fault ≠ some v := by
  have hversion := manager.emptied.version_eq hlookup
  rw [emptied, HashMap.lookup_mapValues, Option.map_eq_some_iff] at hlookup
  obtain ⟨original, -, rfl⟩ := hlookup
  rw [run_empty_down, show original.version = v from hversion]
  split
  · next heq => exact iff_of_false nofun fun hne => hne heq
  · next hne => exact iff_of_true rfl hne

lemma exists_run_of_migrateAll (h : manager.migrateAll sqlite dir versions db = (.ok (), db'))
    (hv : v ∈ versions) (hlookup : manager.migrations.lookup v = some migration) :
    ∃ db₁ db₂, migration.run sqlite dir db₁ = (.ok (), db₂) := by
  induction versions generalizing db with
  | nil => cases hv
  | cons version rest ih =>
    rw [migrateAll] at h
    split at h
    · cases h
    · next migration' hlookup' =>
      split at h
      · cases h
      · next db₁ hrun =>
        rcases List.mem_cons.mp hv with rfl | hrest
        · obtain rfl := Option.some.inj (hlookup'.symm.trans hlookup)
          exact ⟨db, db₁, hrun⟩
        · exact ih h hrest

/-- What a manager whose migrations do nothing migrates down through. -/
lemma migrate_emptied_down (hcurrent : currentVersion rows = .ok current)
    (hlt : manager.targetVersion < current) (fault : Option ℕ) :
    manager.emptied.migrate (faultAt fault) ⟨rows, ()⟩ =
      manager.emptied.migrateAll (faultAt fault) .down
        (manager.emptied.between .down current manager.targetVersion) ⟨rows, ()⟩ := by
  have hdir : direction current manager.targetVersion = .down := if_pos hlt
  rw [migrate_eq hcurrent (show current ≠ manager.emptied.targetVersion from hlt.ne') rfl]
  show manager.emptied.migrateAll _ (direction current manager.targetVersion)
    (manager.emptied.between (direction current manager.targetVersion) current
      manager.targetVersion) _ = _
  rw [hdir]

section Down

variable (hreach : manager.emptied.ReachesTarget rows current)
  (hcurrent : currentVersion rows = .ok current) (hlt : manager.targetVersion < current)
include hreach hcurrent hlt

lemma registered_of_reachesTarget (hpos : 0 < manager.targetVersion) :
    current ∈ manager.migrations.keys ∧ (manager.targetVersion : ℤ) ∈ rows := by
  have hmigrate := migrate_emptied_down hcurrent hlt none
  obtain ⟨db', heq, hall⟩ | ⟨e, db', done, version, rest, migration, -, -, -, hlookup, hfail⟩ :=
    manager.emptied.migrateBetween_cases (faultAt none) .down current manager.targetVersion
      ⟨rows, ()⟩
  swap
  · have hrun := (run_emptied_eq_ok_iff hlookup none db').mpr nofun
    rw [hrun] at hfail
    cases hfail
  have hversion := (hreach.ok (faultAt none) () db' (hmigrate.trans heq)).1
  have htarget := mem_of_currentVersion hversion hpos.ne'
  rw [hall.versions_eq] at hversion htarget
  refine ⟨?_, (mem_recordAll_down.mp htarget).1⟩
  by_contra hnot
  have hkept : (current : ℤ) ∈ Direction.down.recordAll
      (manager.emptied.between .down current manager.targetVersion) rows := by
    refine mem_recordAll_down.mpr
      ⟨mem_of_currentVersion hcurrent (Nat.ne_zero_of_lt hlt), fun v hv hv' => hnot ?_⟩
    have hregistered := (mem_between_down.mp hv).1
    rw [keys_emptied, Int.natCast_inj.mp hv'] at hregistered
    exact hregistered
  have hle := le_of_currentVersion hversion hkept
  have htargetVersion : manager.emptied.targetVersion = manager.targetVersion := rfl
  omega

lemma recorded_of_reachesTarget (hkeys : manager.migrations.keys = Finset.Icc 1 n)
    (hsource : current ≤ n) {v : ℕ} (htargetLt : manager.targetVersion < v) (hvLt : v < current) :
    (v : ℤ) ∈ rows := by
  have hmigrate := migrate_emptied_down hcurrent hlt (some v)
  have hregistered : v ∈ manager.emptied.migrations.keys := by
    rw [keys_emptied, hkeys, Finset.mem_Icc]
    omega
  obtain ⟨migration, hlookup⟩ := Finmap.mem_iff.mp (Finmap.mem_keys.mp hregistered)
  obtain ⟨db', heq, -⟩ | ⟨e, db', -, -, -, -, heq, -⟩ :=
    manager.emptied.migrateBetween_cases (faultAt (some v)) .down current manager.targetVersion
      ⟨rows, ()⟩
  · obtain ⟨db₁, db₂, hrun⟩ := exists_run_of_migrateAll heq
      (mem_between_down.mpr ⟨hregistered, hvLt.le, htargetLt⟩) hlookup
    exact absurd rfl ((run_emptied_eq_ok_iff hlookup (some v) db₁).mp (by rw [hrun]))
  · obtain ⟨done, version, rest, failing, hway, hall, hfailing, hfail, hversion⟩ :=
      hreach.failed (faultAt (some v)) () e db' rfl (hmigrate.trans heq)
    have hdir : direction current manager.emptied.targetVersion = .down := if_pos hlt
    rw [hdir] at hway hall hfail hversion
    -- the migration that fails is the one that cannot be begun
    obtain rfl : v = version := by
      by_contra hne
      have hrun :=
        (run_emptied_eq_ok_iff hfailing (some v) db').mpr fun h => hne (Option.some.inj h)
      rw [hrun] at hfail
      cases hfail
    rw [between_down_eq ((keys_emptied manager).trans hkeys) hsource, List.reverse_eq_iff,
      List.reverse_append, List.reverse_cons] at hway
    obtain ⟨k, hk, hrest, hdone⟩ := List.range'_eq_append_iff.mp hway
    have hlast := congrArg List.getLast? hrest
    rw [List.getLast?_concat, List.getLast?_range'] at hlast
    split at hlast
    · cases hlast
    have hv := Option.some.inj hlast
    have hhead := congrArg List.head? hdone
    rw [List.head?_reverse, List.head?_range'] at hhead
    have htargetVersion : manager.emptied.targetVersion = manager.targetVersion := rfl
    rw [if_neg (by omega)] at hhead
    rw [hhead, Option.map_some, Option.getD_some] at hversion
    have hleads : Direction.down.leadsTo (manager.emptied.targetVersion + 1 + k * 1) = v := by
      show manager.emptied.targetVersion + 1 + k * 1 - 1 = v
      omega
    rw [hleads] at hversion
    have hmem := mem_of_currentVersion hversion (by omega)
    rw [hall.versions_eq] at hmem
    exact (mem_recordAll_down.mp hmem).1

end Down

/-- **From which versions the target is reached.** Whatever the migrations of a valid manager do,
and whichever of them fail, they lead from a version to the target, or to the version of the last
one that was completed, and back, if and only if there is nothing to do, or there are migrations and
they lead up, or down from a version that is registered, with all versions on the way recorded.

**Proof sketch.** On the way up every migration records a higher version than there is. On the way
down each leaves the highest version below that is recorded, which is the next one only if all are.
Without migrations, or from above the registered ones, the way ends successfully elsewhere. -/
theorem reachesTarget_iff (hvalid : manager.validate = .ok ())
    (hcurrent : currentVersion rows = .ok current) :
    (∀ other : MigrationManager, other.migrations.keys = manager.migrations.keys →
      other.targetVersion = manager.targetVersion → other.ReachesTarget rows current) ↔
      manager.CanReach rows current := by
  constructor
  · intro hall
    by_cases hne : current = manager.targetVersion
    · exact .inl hne
    have hreach := hall manager.emptied (keys_emptied manager) rfl
    obtain ⟨n, hkeys, htarget⟩ := validate_eq_ok_iff.mp hvalid
    have hsome : manager.migrations.keys ≠ ∅ := by
      intro hnone
      have hempty : manager.between (direction current manager.targetVersion) current
          manager.targetVersion = [] := by
        refine List.eq_nil_iff_forall_not_mem.mpr fun v hv => ?_
        have hregistered := registered_of_mem_between hv
        rw [hnone] at hregistered
        exact Finset.notMem_empty v hregistered
      have hdb : currentVersion (SchemaDatabase.mk rows ()).versions = .ok current := hcurrent
      have hmigrate := migrate_eq hdb hne (show (faultAt none).queryRow = none from rfl)
      rw [hempty] at hmigrate
      have hversion := ((hall manager rfl rfl).ok (faultAt none) () _ hmigrate).1
      exact hne (Except.ok.inj (hcurrent.symm.trans hversion))
    refine .inr ⟨hsome, (Nat.lt_or_gt_of_ne hne).imp_right fun hlt => ?_⟩
    have hregistered := htarget hsome
    rw [hkeys, Finset.mem_Icc] at hregistered
    obtain ⟨hsource, hrow⟩ := registered_of_reachesTarget hreach hcurrent hlt hregistered.1
    refine ⟨hsource, fun v htv hvc => ?_⟩
    rcases htv.eq_or_lt with rfl | htargetLt
    · exact hrow
    · rw [hkeys, Finset.mem_Icc] at hsource
      exact recorded_of_reachesTarget hreach hcurrent hlt hkeys hsource.2 htargetLt hvc
  · intro hcan other hkeys htarget
    have hvalid' : other.validate = .ok () := by
      rw [validate, hkeys, htarget]
      exact hvalid
    have hcan' : other.CanReach rows current := by
      rw [CanReach, hkeys, htarget]
      exact hcan
    exact hcan'.reachesTarget hvalid' hcurrent

lemma between_new (dir : Direction) (targetVersion source target : ℕ) :
    (new targetVersion).between dir source target = [] := by
  refine List.eq_nil_iff_forall_not_mem.mpr fun v hv => ?_
  have hregistered := registered_of_mem_between hv
  simp [new] at hregistered

section Examples

/-- Two migrations that do nothing. -/
private def twoMigrations : MigrationManager :=
  ((new 2).addMigration ⟨1, by decide, "First migration".toList, [], some []⟩).addMigration
    ⟨2, by decide, "Second migration".toList, [], some []⟩

/-- A database that has been through the first of two migrations reaches the second one. -/
theorem reachesTarget_iff_two :
    (∀ other : MigrationManager, other.migrations.keys = twoMigrations.migrations.keys →
      other.targetVersion = twoMigrations.targetVersion → other.ReachesTarget {1} 1) ↔
      twoMigrations.CanReach {1} 1 :=
  reachesTarget_iff (validate_eq_ok_iff.mpr ⟨2, by decide, fun _ => by decide⟩)
    (currentVersion_eq_ok_iff.mpr ⟨by decide, .inr ⟨by decide, by decide⟩⟩)

/-- **A database without a version does not reach the target** of a manager without migrations, such
as that of this release. -/
theorem not_forall_reachesTarget : ¬ ∀ (manager : MigrationManager) (rows : Finset ℤ) (current : ℕ),
    manager.validate = .ok () → currentVersion rows = .ok current →
      manager.ReachesTarget rows current := by
  intro hall
  have hvalid : (new 1).validate = .ok () :=
    validate_eq_ok_iff.mpr ⟨0, by decide, fun hne => absurd rfl hne⟩
  have hmigrate : (new 1).migrate (faultAt none) ⟨∅, ()⟩ = (.ok (), ⟨∅, ()⟩) := by
    rw [migrate_eq rfl (show 0 ≠ (new 1).targetVersion by decide) rfl, between_new]
    rfl
  have hversion := ((hall (new 1) ∅ 0 hvalid rfl).ok (faultAt none) () _ hmigrate).1
  cases hversion

end Examples

end MigrationManager

end Series

end Landropic
