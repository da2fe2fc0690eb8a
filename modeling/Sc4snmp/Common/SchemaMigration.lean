import Sc4snmp.CustomTaskManager
import Sc4snmp.Lib.Program

/-!
# Schema migration

`common/schema_migration.py`: six migrations over the collections of the database and
the schedules in Redis, of which those above the stored version are run, in order; the
new version is stored after the last one.  A run may be interrupted between any two
operations, and the next one starts over from the version it finds.

`update_one` with an empty filter changes the first document of a collection only.

## Main definitions

* `MigrationDb`, `MigrationOp` — what the migrations work on, and their operations.
* `migrateDatabase` — the program.
* `Migrated` — the state the migration is for.
* `SchemaMigratable` — when it is reached.

## Main results

* `migrateToVersion_spec` — what a migration does, wherever a run is interrupted.
* `migrateDatabase_spec` — what a run does, wherever it or an earlier one is interrupted.
* `migrateDatabase_migrated_iff` — **exactly the databases that can be migrated are**.
-/

namespace Sc4snmp

/-- A document of the `targets` collection. -/
structure TargetDocument (δ : Type) where
  address : String
  /-- The `attributes` field, when the document has one. -/
  attributes : Option δ
  deriving DecidableEq

/-- A document of the `schedules` collection, as the scheduler before RedBeat kept it. -/
structure ScheduleDocument where
  task : String
  target : String
  /-- `interval.every`. -/
  interval : Option ℤ
  /-- `kwargs`, of which `profile` is read. -/
  kwargs : Option (Option String)
  deriving DecidableEq

/-- A document of the `inventory` collection. -/
structure InventoryDocument where
  address : String
  /-- The `group` field: it may be missing, and it may be null. -/
  group : Option (Option String)
  deriving DecidableEq

/-- What the migrations work on. -/
structure MigrationDb (δ : Type) where
  /-- The `version` of the first document of `schema_version`. -/
  schemaVersion : Option ℤ
  targets : List (TargetDocument δ)
  attributes : List δ
  /-- Whether `attributes` has its index. -/
  attributesIndexed : Bool
  schedules : List ScheduleDocument
  inventory : List InventoryDocument
  /-- The `security_engine_id` of each document of `engine_id_records`. -/
  engineIdRecords : List (Option String)
  /-- Whether `engine_id_records` has its unique index. -/
  engineIdsUnique : Bool
  redbeat : ScheduleStore

/-- `CURRENT_SCHEMA_VERSION`. -/
def currentSchemaVersion : ℤ := 6

/-! ### The operations -/

/-- The operations of the migrations. -/
inductive MigrationOp
  | findVersion
  | getAllSchedules
  | delete (e : RedBeatSchedulerEntry)
  | save (e : RedBeatSchedulerEntry)
  | unsetAttributes
  | dropAttributes
  | createAttributesIndex
  | findWalks
  | manageTask (d : TaskData)
  | dropSchedules
  | unsetGroups
  | createEngineIdIndex
  | saveVersion (version : ℤ)

variable {δ : Type}

/-- `update_one({}, {"$unset": {"attributes": 1}}, False)`: the first document. -/
def unsetFirst : List (TargetDocument δ) → List (TargetDocument δ)
  | [] => []
  | t :: ts => { t with attributes := none } :: ts

@[simp] theorem unsetFirst_unsetFirst (ts : List (TargetDocument δ)) :
    unsetFirst (unsetFirst ts) = unsetFirst ts := by
  cases ts <;> rfl

/-- What an operation does to the database.  One that raises leaves it as it is. -/
def applyMigration : MigrationOp → MigrationDb δ → MigrationDb δ
  | .findVersion, db => db
  | .getAllSchedules, db => db
  | .delete e, db => { db with redbeat := db.redbeat.delete e }
  | .save e, db => { db with redbeat := db.redbeat.save e }
  | .unsetAttributes, db => { db with targets := unsetFirst db.targets }
  | .dropAttributes, db => { db with attributes := [], attributesIndexed := false }
  | .createAttributesIndex, db => { db with attributesIndexed := true }
  | .findWalks, db => db
  | .manageTask d, db =>
    match db.redbeat.manageTask d with
    | .ok s => { db with redbeat := s }
    | .error _ => db
  | .dropSchedules, db => { db with schedules := [] }
  | .unsetGroups, db => { db with inventory := db.inventory.map ({ · with group := some none }) }
  | .createEngineIdIndex, db =>
    if db.engineIdRecords.Nodup then { db with engineIdsUnique := true } else db
  | .saveVersion version, db => { db with schemaVersion := some version }

/-- A program over the database. -/
abbrev Migration (δ : Type) := Program MigrationOp (MigrationDb δ)

open Program (perform forEach)
open ScheduleStore (allSchedulesPattern)

/-! ### The task manager -/

/-- `delete_all_poll_tasks`. -/
def deleteAllPollTasks : Migration δ Unit := do
  let db ← perform .getAllSchedules
  forEach (fun e => perform (.delete e) >>= fun _ => .done ())
    (db.redbeat.getAllSchedules.filter fun e => e.task = pollTask)

/-- `set_run_immediately(True)`. -/
def RedBeatSchedulerEntry.rerun (e : RedBeatSchedulerEntry) : RedBeatSchedulerEntry :=
  { e with runImmediately := true }

/-- `rerun_all_walks`. -/
def rerunAllWalks : Migration δ Unit := do
  let db ← perform .getAllSchedules
  forEach (fun e => perform (.save e.rerun) >>= fun _ => .done ())
    (db.redbeat.getAllSchedules.filter fun e => e.task = walkTask)

/-! ### The migrations -/

/-- The documents of a collection for the walk task. -/
def walkDocuments (schedules : List ScheduleDocument) : List ScheduleDocument :=
  schedules.filter fun d => d.task = walkTask

/-- The task of a walk document. -/
def walkData (expiryTime : ℤ) (target : String) (interval : ℤ) (profile : Option String) :
    TaskData :=
  WalkTaskGenerator.generateTaskDefinition expiryTime
    { target, schedulePeriod := interval, group := .none, profile }

/-- The loop of `transform_mongodb_periodic_to_redbeat`. -/
def transformWalks (expiryTime : ℤ) : List ScheduleDocument → Migration δ (Except PyError Unit)
  | [] => .done (.ok ())
  | d :: ds =>
    match d.interval, d.kwargs with
    | some interval, some profile => do
      let task := walkData expiryTime d.target interval profile
      let db ← perform (.manageTask task)
      match db.redbeat.manageTask task with
      | .ok _ => transformWalks expiryTime ds
      | .error err => .done (.error err)
    | _, _ => .done (.error .attributeError)

/-- `transform_mongodb_periodic_to_redbeat`. -/
def transformMongodbPeriodicToRedbeat (expiryTime : ℤ) : Migration δ (Except PyError Unit) := do
  let db ← perform .findWalks
  transformWalks expiryTime (walkDocuments db.schedules)

/-- `migrate_to_version_1`. -/
def migrateToVersion1 : Migration δ (Except PyError Unit) := do
  deleteAllPollTasks
  let _ ← perform .unsetAttributes
  rerunAllWalks
  return .ok ()

/-- `migrate_to_version_2`. -/
def migrateToVersion2 : Migration δ (Except PyError Unit) := do
  deleteAllPollTasks
  let _ ← perform .dropAttributes
  rerunAllWalks
  return .ok ()

/-- `migrate_to_version_3`. -/
def migrateToVersion3 : Migration δ (Except PyError Unit) := do
  let _ ← perform .createAttributesIndex
  return .ok ()

/-- `migrate_to_version_4`. -/
def migrateToVersion4 (expiryTime : ℤ) : Migration δ (Except PyError Unit) :=
  (transformMongodbPeriodicToRedbeat expiryTime).andThen fun _ => do
    let _ ← perform .dropSchedules
    return .ok ()

/-- `migrate_to_version_5`. -/
def migrateToVersion5 : Migration δ (Except PyError Unit) := do
  let _ ← perform .unsetGroups
  return .ok ()

/-- `migrate_to_version_6`.  The unique index is not built over a duplicate. -/
def migrateToVersion6 : Migration δ (Except PyError Unit) := do
  let db ← perform .createEngineIdIndex
  return if db.engineIdRecords.Nodup then .ok () else .error .other

/-- `getattr(sys.modules[__name__], "migrate_to_version_" + str(version))`. -/
def migrateToVersion (expiryTime version : ℤ) : Migration δ (Except PyError Unit) :=
  if version = 1 then migrateToVersion1
  else if version = 2 then migrateToVersion2
  else if version = 3 then migrateToVersion3
  else if version = 4 then migrateToVersion4 expiryTime
  else if version = 5 then migrateToVersion5
  else if version = 6 then migrateToVersion6
  else .done (.error .attributeError)

/-- `range(start, start + n)`. -/
def rangeFrom (start : ℤ) : ℕ → List ℤ
  | 0 => []
  | n + 1 => start :: rangeFrom (start + 1) n

/-- The loop of `migrate_database`. -/
def migrateVersions (expiryTime : ℤ) : List ℤ → Migration δ (Except PyError Unit)
  | [] => .done (.ok ())
  | x :: xs => (migrateToVersion expiryTime (x + 1)).andThen fun _ => migrateVersions expiryTime xs

/-- `fetch_schema_version`. -/
def MigrationDb.version (db : MigrationDb δ) : ℤ := db.schemaVersion.getD 0

/-- `migrate_database`, under a `CHAIN_OF_TASKS_EXPIRY_TIME`. -/
def migrateDatabase (expiryTime : ℤ) : Migration δ (Except PyError Unit) := do
  let db ← perform .findVersion
  if db.version < currentSchemaVersion then
    (migrateVersions expiryTime
        (rangeFrom db.version (currentSchemaVersion - db.version).toNat)).andThen fun _ => do
      let _ ← perform (.saveVersion currentSchemaVersion)
      return .ok ()
  else return .ok ()

/-! ### What the migration is for -/

/-- A RedBeat entry with the target, the interval and the profile of a walk document. -/
structure WalkRecorded (d : ScheduleDocument) (e : RedBeatSchedulerEntry) : Prop where
  target : e.target = some d.target
  interval : d.interval = some e.schedule
  profile : ∃ profile, d.kwargs = some profile ∧
    e.kwargs.get? "profile" = some (.scalar (profile.elim .none .str))

/-- **The postcondition of a migration** from a database to another. -/
structure Migrated (db₀ db : MigrationDb δ) : Prop where
  attributes : db₀.version = 0 → ∀ t ∈ db.targets, t.attributes = none
  walks : db₀.version < 4 → ∀ d ∈ walkDocuments db₀.schedules,
    ∃ e, db.redbeat.lookup? (walkKey d.target) = some e ∧ WalkRecorded d e
  polls : db₀.version < 2 → (∀ k e, db.redbeat.lookup? k = some e → e.task ≠ pollTask) ∧
    ∀ d ∈ db.schedules, d.task ≠ pollTask
  groups : db₀.version < 5 → ∀ d ∈ db.inventory, d.group = some none
  version : db.schemaVersion = some currentSchemaVersion

/-- The walk documents can be read, and what is stored under their keys. -/
def WalkDocumentsReadable (db : MigrationDb δ) : Prop :=
  ∀ d ∈ walkDocuments db.schedules, d.interval.isSome ∧ d.kwargs.isSome ∧
    db.redbeat.fromKey (walkKey d.target) ≠ .error .valueError

/-- **When a database can be migrated.** -/
structure SchemaMigratable (db : MigrationDb δ) : Prop where
  version : 0 ≤ db.version
  /-- Only the first target has attributes. -/
  attributes : db.version = 0 → ∀ t ∈ db.targets.tail, t.attributes = none
  /-- The polls are under the keys of the schedules. -/
  polls : db.version < 2 → ∀ k e, db.redbeat.lookup? k = some e → e.task = pollTask →
    Glob.isMatch allSchedulesPattern k = true
  readable : db.version < 4 → WalkDocumentsReadable db
  /-- No target has two different walks. -/
  walks : db.version < 4 → ∀ d ∈ walkDocuments db.schedules,
    ∀ d' ∈ walkDocuments db.schedules, d.target = d'.target →
      d.interval = d'.interval ∧ d.kwargs = d'.kwargs
  engineIds : db.engineIdRecords.Nodup

/-! ### What deleting polls and rerunning walks keeps -/

/-- A store has what another had, up to poll schedules and the flag to run at once. -/
structure ScheduleStore.SchedulesKept (s s' : ScheduleStore) : Prop where
  unreadable : ∀ k, s'.fromKey k = .error .valueError ↔ s.fromKey k = .error .valueError
  outside : ∀ k, Glob.isMatch allSchedulesPattern k = false → s'.lookup? k = s.lookup? k
  others : ∀ k e, s.lookup? k = some e → e.task ≠ pollTask →
    ∃ flag, s'.lookup? k = some { e with runImmediately := flag }
  tasks : ∀ k e', s'.lookup? k = some e' → ∃ e, s.lookup? k = some e ∧ e.task = e'.task

/-- No poll schedule is left under the keys the manager looks at. -/
def ScheduleStore.NoPolls (s : ScheduleStore) : Prop :=
  ∀ k e, Glob.isMatch allSchedulesPattern k = true → s.lookup? k = some e → e.task ≠ pollTask

namespace ScheduleStore

variable {s s' s'' : ScheduleStore}

theorem SchedulesKept.refl (s : ScheduleStore) : s.SchedulesKept s where
  unreadable _ := Iff.rfl
  outside _ _ := rfl
  others _ e he _ := ⟨e.runImmediately, he⟩
  tasks _ e he := ⟨e, he, rfl⟩

theorem NoPolls.kept (h : s.NoPolls) (hkept : s.SchedulesKept s') : s'.NoPolls := by
  intro k e' hk he'
  obtain ⟨e, he, htask⟩ := hkept.tasks k e' he'
  rw [← htask]
  exact h k e hk he

/-- An entry the manager loads is readable under its key. -/
theorem lookup?_of_mem_getAllSchedules {e : RedBeatSchedulerEntry} (he : e ∈ s.getAllSchedules) :
    Glob.isMatch allSchedulesPattern (redbeatKey e.name) = true ∧
      s.lookup? (redbeatKey e.name) = some e := by
  obtain ⟨k, hk, hlookup⟩ := mem_loadSchedules.mp he
  obtain rfl := key_of_lookup? hlookup
  exact ⟨hk, hlookup⟩

/-- Deleting some of the polls. -/
theorem kept_delete {e : RedBeatSchedulerEntry} (hkept : s.SchedulesKept s')
    (he : e ∈ s.getAllSchedules)
    (htask : e.task = pollTask) : s.SchedulesKept (s'.delete e) := by
  obtain ⟨hmatch, hlookup⟩ := lookup?_of_mem_getAllSchedules he
  have hfrom := fromKey_eq_ok_iff.mpr hlookup
  constructor
  · intro k
    rw [fromKey_delete]
    split
    · next hk =>
      subst hk
      rw [hfrom]
      simp
    · exact hkept.unreadable k
  · -- a key outside the pattern is not that of a loaded entry
    intro k hk
    rw [lookup?_delete, if_neg]
    · exact hkept.outside k hk
    · rintro rfl
      rw [hmatch] at hk
      cases hk
  · -- the entry that is deleted is a poll
    intro k e' he' htask'
    rw [lookup?_delete, if_neg]
    · exact hkept.others k e' he' htask'
    · rintro rfl
      rw [hlookup, Option.some.injEq] at he'
      exact htask' (he' ▸ htask)
  · intro k e' he'
    rw [lookup?_delete] at he'
    split at he'
    · cases he'
    · exact hkept.tasks k e' he'

/-- Saving loaded entries again, to run at once. -/
theorem kept_rerun {e : RedBeatSchedulerEntry} (hkept : s.SchedulesKept s')
    (he : e ∈ s.getAllSchedules) :
    s.SchedulesKept (s'.save e.rerun) := by
  obtain ⟨hmatch, hlookup⟩ := lookup?_of_mem_getAllSchedules he
  have hfrom := fromKey_eq_ok_iff.mpr hlookup
  have hname : redbeatKey e.rerun.name = redbeatKey e.name := rfl
  constructor
  · intro k
    rw [fromKey_save, hname]
    split
    · next hk =>
      subst hk
      rw [hfrom]
      simp
    · exact hkept.unreadable k
  · intro k hk
    rw [lookup?_save, hname, if_neg]
    · exact hkept.outside k hk
    · rintro rfl
      rw [hmatch] at hk
      cases hk
  · -- saved again, the entry differs in its flag only
    intro k e' he' htask'
    rw [lookup?_save, hname]
    split
    · next hk =>
      subst hk
      rw [hlookup, Option.some.injEq] at he'
      subst he'
      exact ⟨true, rfl⟩
    · exact hkept.others k e' he' htask'
  · intro k e' he'
    rw [lookup?_save, hname] at he'
    split at he'
    · next hk =>
      subst hk
      cases he'
      exact ⟨e, hlookup, rfl⟩
    · exact hkept.tasks k e' he'

end ScheduleStore

/-- **`delete_all_poll_tasks`**, wherever it is interrupted. -/
theorem deleteAllPollTasks_spec {I : MigrationDb δ → Prop} {db : MigrationDb δ}
    (hI : ∀ s, db.redbeat.SchedulesKept s → I { db with redbeat := s }) :
    Program.Always applyMigration I (fun _ db' => ∃ s, db' = { db with redbeat := s } ∧
      db.redbeat.SchedulesKept s ∧ s.NoPolls) deleteAllPollTasks db := by
  refine ⟨hI _ (.refl _), ?_⟩
  -- the entries deleted so far are gone, the others are as they were
  refine (Program.always_forEach (J := fun before db' => ∃ s, db' = { db with redbeat := s } ∧
    db.redbeat.SchedulesKept s ∧ ∀ e ∈ before, s.lookup? (redbeatKey e.name) = none)
    ?_ ?_ ?_).imp ?_
  · rintro before _ - ⟨s, rfl, hkept, -⟩
    exact hI s hkept
  · rintro before e _ hprefix ⟨s, rfl, hkept, hgone⟩
    have he : e ∈ db.redbeat.getAllSchedules.filter fun e => e.task = pollTask :=
      hprefix.subset (by simp)
    obtain ⟨he, htask⟩ := List.mem_filter.mp he
    have hkept' := ScheduleStore.kept_delete hkept he (of_decide_eq_true htask)
    refine ⟨hI s hkept, hI _ hkept', s.delete e, rfl, hkept', ?_⟩
    intro e' he'
    rw [ScheduleStore.lookup?_delete]
    split
    · rfl
    · next hne =>
      rcases List.mem_append.mp he' with he' | he'
      · exact hgone e' he'
      · rw [List.mem_singleton.mp he'] at hne
        exact absurd rfl hne
  · exact ⟨db.redbeat, rfl, .refl _, by simp⟩
  · rintro _ _ - ⟨s, rfl, hkept, hgone⟩
    refine ⟨s, rfl, hkept, ?_⟩
    intro k e hk he htask
    obtain ⟨e₀, he₀, htask₀⟩ := hkept.tasks k e he
    obtain rfl := ScheduleStore.key_of_lookup? he₀
    have hmem : e₀ ∈ db.redbeat.getAllSchedules.filter fun e => e.task = pollTask :=
      List.mem_filter.mpr ⟨ScheduleStore.mem_loadSchedules.mpr ⟨_, hk, he₀⟩, by
        rw [htask₀, htask, decide_eq_true rfl]⟩
    rw [hgone e₀ hmem] at he
    cases he

/-- **`rerun_all_walks`**, wherever it is interrupted. -/
theorem rerunAllWalks_spec {I : MigrationDb δ → Prop} {db : MigrationDb δ}
    (hI : ∀ s, db.redbeat.SchedulesKept s → I { db with redbeat := s }) :
    Program.Always applyMigration I (fun _ db' => ∃ s, db' = { db with redbeat := s } ∧
      db.redbeat.SchedulesKept s) rerunAllWalks db := by
  refine ⟨hI _ (.refl _), ?_⟩
  refine Program.always_forEach (J := fun _ db' => ∃ s, db' = { db with redbeat := s } ∧
    db.redbeat.SchedulesKept s) ?_ ?_ ⟨db.redbeat, rfl, .refl _⟩
  · rintro before _ - ⟨s, rfl, hkept⟩
    exact hI s hkept
  · rintro before e _ hprefix ⟨s, rfl, hkept⟩
    have he : e ∈ db.redbeat.getAllSchedules.filter fun e => e.task = walkTask :=
      hprefix.subset (by simp)
    have hkept' := ScheduleStore.kept_rerun hkept (List.mem_filter.mp he).1
    exact ⟨hI s hkept, hI _ hkept', _, rfl, hkept'⟩

/-! ### How far a migration has come -/

section Progress

variable {db₀ db : MigrationDb δ} {n : ℤ}

/-- A walk document has an entry, with what it or another document of the target says.
Before version 2 the entry is none that the next run deletes. -/
def WalkManaged (db₀ : MigrationDb δ) (s : ScheduleStore) (d : ScheduleDocument) : Prop :=
  ∃ d' ∈ walkDocuments db₀.schedules, d'.target = d.target ∧
    ∃ e, s.lookup? (walkKey d.target) = some e ∧ WalkRecorded d' e ∧
      (db₀.version < 2 → e.task ≠ pollTask)

/-- The migrations of a database have been run up to a version, or beyond by runs that
were interrupted. -/
structure Progress (db₀ : MigrationDb δ) (n : ℤ) (db : MigrationDb δ) : Prop where
  version : db.schemaVersion = db₀.schemaVersion
  engineIds : db.engineIdRecords = db₀.engineIdRecords
  targets : db₀.version = 0 →
    db.targets = unsetFirst db₀.targets ∨ n < 1 ∧ db.targets = db₀.targets
  unreadable : ∀ k, db.redbeat.fromKey k = .error .valueError ↔
    db₀.redbeat.fromKey k = .error .valueError
  outside : ∀ k, Glob.isMatch allSchedulesPattern k = false →
    db.redbeat.lookup? k = db₀.redbeat.lookup? k
  polls : db₀.version < 2 → 2 ≤ n → db.redbeat.NoPolls
  schedules : db₀.version < 4 →
    (db.schedules = [] ∧ WalkDocumentsReadable db₀ ∧
      ∀ d ∈ walkDocuments db₀.schedules, WalkManaged db₀ db.redbeat d) ∨
    n < 4 ∧ db.schedules = db₀.schedules
  groups : db₀.version < 5 → 5 ≤ n → ∀ d ∈ db.inventory, d.group = some none

/-- What a migration needs to get through. -/
structure Passable (db₀ : MigrationDb δ) (version : ℤ) : Prop where
  pos : 1 ≤ version
  readable : version = 4 → WalkDocumentsReadable db₀
  engineIds : version = 6 → db₀.engineIdRecords.Nodup

/-- A program that may raise gets through under a condition, and leaves a property then. -/
def Outcome (C : Prop) (Q : MigrationDb δ → Prop) : Except PyError Unit → MigrationDb δ → Prop
  | .ok (), db => C ∧ Q db
  | .error _, _ => ¬C

theorem Progress.refl (db₀ : MigrationDb δ) : Progress db₀ db₀.version db₀ where
  version := rfl
  engineIds := rfl
  targets h := Or.inr ⟨by omega, rfl⟩
  unreadable _ := Iff.rfl
  outside _ _ := rfl
  polls h h' := by omega
  schedules h := Or.inr ⟨h, rfl⟩
  groups h h' := by omega

theorem Progress.mono {m : ℤ} (h : Progress db₀ n db) (hm : m ≤ n) : Progress db₀ m db where
  version := h.version
  engineIds := h.engineIds
  targets h0 := (h.targets h0).imp_right fun ⟨hn, ht⟩ => ⟨by omega, ht⟩
  unreadable := h.unreadable
  outside := h.outside
  polls h2 hn := h.polls h2 (by omega)
  schedules h4 := (h.schedules h4).imp_right fun ⟨hn, hs⟩ => ⟨by omega, hs⟩
  groups h5 hn := h.groups h5 (by omega)

/-- Deleting polls and rerunning walks loses nothing. -/
theorem Progress.kept {s : ScheduleStore} (h : Progress db₀ n db) (hv : db₀.version < 2)
    (hkept : db.redbeat.SchedulesKept s) : Progress db₀ n { db with redbeat := s } where
  version := h.version
  engineIds := h.engineIds
  targets := h.targets
  unreadable k := (hkept.unreadable k).trans (h.unreadable k)
  outside k hk := (hkept.outside k hk).trans (h.outside k hk)
  polls h2 hn := (h.polls h2 hn).kept hkept
  schedules h4 := by
    refine (h.schedules h4).imp_left ?_
    rintro ⟨hnil, hreadable, hwalks⟩
    refine ⟨hnil, hreadable, ?_⟩
    intro d hd
    obtain ⟨d', hd', htarget, e, he, hrec, htask⟩ := hwalks d hd
    obtain ⟨flag, he'⟩ := hkept.others _ e he (htask hv)
    exact ⟨d', hd', htarget, _, he', ⟨hrec.target, hrec.interval, hrec.profile⟩, htask⟩
  groups := h.groups

/-! ### The walks -/

/-- What `manage_task` makes of a walk document records it. -/
theorem walkRecorded_managedEntry (expiryTime : ℤ) {d : ScheduleDocument} {interval : ℤ}
    {profile : Option String} (hinterval : d.interval = some interval)
    (hprofile : d.kwargs = some profile) (old : Option RedBeatSchedulerEntry) :
    WalkRecorded d
      (ScheduleStore.managedEntry old (walkData expiryTime d.target interval profile)) := by
  have hkwargs : (ScheduleStore.managedEntry old
      (walkData expiryTime d.target interval profile)).kwargs.get? "profile" =
        some (.scalar (profile.elim .none .str)) := by
    cases old <;> cases profile <;> rfl
  refine ⟨?_, ?_, profile, hprofile, hkwargs⟩
  · cases old <;> rfl
  · rw [hinterval]
    cases old <;> rfl

/-- Managing a walk document. -/
theorem Progress.manageTask {expiryTime : ℤ} {d : ScheduleDocument} {interval : ℤ}
    {profile : Option String} {s : ScheduleStore} (h : Progress db₀ n db)
    (hschedules : db.schedules = db₀.schedules) (hn : n < 4)
    (hs : db.redbeat.manageTask (walkData expiryTime d.target interval profile) = .ok s) :
    Progress db₀ n { db with redbeat := s } := by
  have hfrom := @ScheduleStore.fromKey_manageTask _ _ _ (walkTaskName d.target) rfl rfl hs
  have hlookup := @ScheduleStore.lookup?_manageTask _ _ _ (walkTaskName d.target) rfl rfl hs
  refine ⟨h.version, h.engineIds, h.targets, ?_, ?_, ?_, fun _ => Or.inr ⟨hn, hschedules⟩,
    h.groups⟩
  · intro k
    rw [← h.unreadable k, hfrom]
    split
    · next hk =>
      -- over a definition that is not JSON it would have raised
      subst hk
      have hraise := (ScheduleStore.manageTask_error_iff (s := db.redbeat)
        (d := walkData expiryTime d.target interval profile) rfl).not.mp (by
          rintro ⟨err, herr⟩
          rw [hs] at herr
          cases herr)
      simpa using hraise
    · rfl
  · intro k hk
    rw [← h.outside k hk, hlookup, if_neg]
    rintro rfl
    have := ScheduleStore.isMatch_walkKey d.target
    rw [walkKey, hk] at this
    cases this
  · intro h2 h2n k e hk he
    have hpolls := h.polls h2 h2n
    rw [hlookup] at he
    split at he
    · cases hold : db.redbeat.lookup? k with
      | none =>
        rw [hold, Option.some.injEq] at he
        subst he
        simp [ScheduleStore.managedEntry, TaskData.newEntry, walkData,
          WalkTaskGenerator.generateTaskDefinition, walkTask, pollTask]
      | some e' =>
        rw [hold, Option.some.injEq] at he
        subst he
        exact hpolls k e' hk hold
    · exact hpolls k e hk he

/-- The walk of a document is refused for a definition that is not JSON. -/
theorem manageWalk_error_iff {expiryTime : ℤ} {d : ScheduleDocument} {interval : ℤ}
    {profile : Option String} {s : ScheduleStore} :
    (∃ err, s.manageTask (walkData expiryTime d.target interval profile) = .error err) ↔
      s.fromKey (walkKey d.target) = .error .valueError :=
  ScheduleStore.manageTask_error_iff (d := walkData expiryTime d.target interval profile) rfl

/-- A document is managed by `manage_task`. -/
theorem WalkManaged.of_manageTask {expiryTime : ℤ} {d : ScheduleDocument} {interval : ℤ}
    {profile : Option String} {s s' : ScheduleStore} (hd : d ∈ walkDocuments db₀.schedules)
    (hinterval : d.interval = some interval) (hprofile : d.kwargs = some profile)
    (hpolls : db₀.version < 2 → s'.NoPolls)
    (hs : s.manageTask (walkData expiryTime d.target interval profile) = .ok s') :
    WalkManaged db₀ s' d := by
  have hlookup := (@ScheduleStore.lookup?_manageTask _ _ _ (walkTaskName d.target) rfl rfl hs
    (walkKey d.target)).trans (if_pos rfl)
  refine ⟨d, hd, rfl, _, hlookup, walkRecorded_managedEntry expiryTime hinterval hprofile _, ?_⟩
  intro hv
  exact hpolls hv _ _ (ScheduleStore.isMatch_walkKey d.target) hlookup

/-- What is managed stays so when another document is, or the same again. -/
theorem WalkManaged.manageTask {expiryTime : ℤ} {d d₁ : ScheduleDocument} {interval : ℤ}
    {profile : Option String} {s s' : ScheduleStore} (h : WalkManaged db₀ s d₁)
    (hd : WalkManaged db₀ s' d)
    (hs : s.manageTask (walkData expiryTime d.target interval profile) = .ok s') :
    WalkManaged db₀ s' d₁ := by
  obtain ⟨d', hd', htarget, e, he, hrest⟩ := h
  by_cases hkey : d₁.target = d.target
  · obtain ⟨d'', hd'', htarget'', hentry⟩ := hd
    rw [← hkey] at htarget'' hentry
    exact ⟨d'', hd'', htarget'', hentry⟩
  · refine ⟨d', hd', htarget, e, ?_, hrest⟩
    rw [@ScheduleStore.lookup?_manageTask _ _ _ (walkTaskName d.target) rfl rfl hs, if_neg, he]
    intro hk
    exact hkey (walkKey_injective hk)

/-- **The loop over the walk documents**, wherever it is interrupted: the documents are
those to come and those that are managed. -/
theorem transformWalks_spec {I : MigrationDb δ → Prop} {expiryTime : ℤ} (hn : n < 4)
    (hI : ∀ db, Progress db₀ n db → I db) (hpolls : db₀.version < 2 → 2 ≤ n)
    (ds : List ScheduleDocument) (hds : ∀ d ∈ ds, d ∈ walkDocuments db₀.schedules)
    (hdone : ∀ d ∈ walkDocuments db₀.schedules, d ∈ ds ∨ WalkManaged db₀ db.redbeat d ∧
      d.interval.isSome ∧ d.kwargs.isSome ∧
        db₀.redbeat.fromKey (walkKey d.target) ≠ .error .valueError)
    (hschedules : db.schedules = db₀.schedules) (h : Progress db₀ n db) :
    Program.Always applyMigration I
      (Outcome (WalkDocumentsReadable db₀) fun db' => Progress db₀ n db' ∧
      db'.schedules = db₀.schedules ∧
        ∀ d ∈ walkDocuments db₀.schedules, WalkManaged db₀ db'.redbeat d)
      (transformWalks expiryTime ds) db := by
  induction ds generalizing db with
  | nil =>
    have hdone := fun d hd => (hdone d hd).resolve_left List.not_mem_nil
    exact ⟨hI db h, fun d hd => (hdone d hd).2, h, hschedules, fun d hd => (hdone d hd).1⟩
  | cons d ds ih =>
    have hd := hds d List.mem_cons_self
    rw [transformWalks]
    split
    · next interval profile hinterval hprofile =>
      refine Program.always_perform_bind.mpr ⟨hI db h, ?_⟩
      cases hs : db.redbeat.manageTask (walkData expiryTime d.target interval profile) with
      | error err =>
        -- the hash of the document is not JSON, nor was it at the beginning
        have happly : applyMigration (.manageTask (walkData expiryTime d.target interval profile))
            db = db := by rw [applyMigration, hs]
        rw [happly]
        refine ⟨hI db h, fun hreadable => (hreadable d hd).2.2 ?_⟩
        rw [← h.unreadable]
        exact manageWalk_error_iff.mp ⟨err, hs⟩
      | ok s =>
        have happly : applyMigration (.manageTask (walkData expiryTime d.target interval profile))
            db = { db with redbeat := s } := by rw [applyMigration, hs]
        rw [happly]
        have hprogress := h.manageTask hschedules hn hs
        have hmanaged : WalkManaged db₀ s d := WalkManaged.of_manageTask hd hinterval hprofile
          (fun hv => hprogress.polls hv (hpolls hv)) hs
        refine ih (fun d' hd' => hds d' (List.mem_cons_of_mem d hd')) ?_ hschedules hprogress
        intro d₁ hd₁
        rcases hdone d₁ hd₁ with hmem | ⟨hmanaged₁, hreadable⟩
        · rcases List.mem_cons.mp hmem with rfl | hmem
          · refine Or.inr ⟨hmanaged, by simp [hinterval], by simp [hprofile], ?_⟩
            rw [Ne, ← h.unreadable, ← manageWalk_error_iff, hs]
            rintro ⟨err, herr⟩
            cases herr
          · exact Or.inl hmem
        · exact Or.inr ⟨hmanaged₁.manageTask hmanaged hs, hreadable⟩
    · next hnone =>
      refine ⟨hI db h, fun hreadable => ?_⟩
      obtain ⟨hinterval, hprofile, -⟩ := hreadable d hd
      obtain ⟨interval, hinterval⟩ := Option.isSome_iff_exists.mp hinterval
      obtain ⟨profile, hprofile⟩ := Option.isSome_iff_exists.mp hprofile
      exact hnone interval profile hinterval hprofile

/-! ### The migrations, wherever they are interrupted -/

/-- The migrations to versions 1 and 2 delete the polls, work on a collection and rerun
the walks. -/
theorem deleteAndRerun_spec {op : MigrationOp} {n' : ℤ} (hv : db₀.version < 2)
    (h : Progress db₀ n db)
    (hop : ∀ db, Progress db₀ n db → db.redbeat.NoPolls →
      Progress db₀ n' (applyMigration op db)) (hn : n ≤ n') :
    Program.Always applyMigration (Progress db₀ n)
      (fun r db' => r = .ok () ∧ Progress db₀ n' db')
      (do
        deleteAllPollTasks
        let _ ← perform op
        rerunAllWalks
        return .ok () : Migration δ (Except PyError Unit)) db := by
  refine (deleteAllPollTasks_spec fun s hs => h.kept hv hs).bind ?_
  rintro _ _ h₁ ⟨s, rfl, -, hpolls⟩
  have h₂ := hop _ h₁ hpolls
  refine Program.always_perform_bind.mpr ⟨h₁, ?_⟩
  refine (rerunAllWalks_spec fun s hs => (h₂.kept hv hs).mono hn).bind ?_
  rintro _ _ h₃ ⟨s', rfl, hs'⟩
  exact ⟨h₃, rfl, h₂.kept hv hs'⟩

/-- The next version is reached where what is new about it holds. -/
theorem Progress.next (h : Progress db₀ n db)
    (htargets : n = 0 → db₀.version = 0 → db.targets = unsetFirst db₀.targets)
    (hpolls : n = 1 → db.redbeat.NoPolls)
    (hschedules : n = 3 → db.schedules = [] ∧ WalkDocumentsReadable db₀ ∧
      ∀ d ∈ walkDocuments db₀.schedules, WalkManaged db₀ db.redbeat d)
    (hgroups : n = 4 → ∀ d ∈ db.inventory, d.group = some none) : Progress db₀ (n + 1) db :=
  { h with
    targets := by
      intro hv
      by_cases hn : n = 0
      · exact Or.inl (htargets hn hv)
      · exact (h.targets hv).imp_right fun ⟨hlt, ht⟩ => ⟨by omega, ht⟩
    polls := by
      intro hv hn
      by_cases hn1 : n = 1
      · exact hpolls hn1
      · exact h.polls hv (by omega)
    schedules := by
      intro hv
      by_cases hn : n = 3
      · exact Or.inl (hschedules hn)
      · exact (h.schedules hv).imp_right fun ⟨hlt, hs⟩ => ⟨by omega, hs⟩
    groups := by
      intro hv hn
      by_cases hn4 : n = 4
      · exact hgroups hn4
      · exact h.groups hv (by omega) }

theorem Progress.unsetAttributes (h : Progress db₀ 0 db) (hpolls : db.redbeat.NoPolls) :
    Progress db₀ 1 (applyMigration .unsetAttributes db) :=
  { h with
    targets := by
      intro hv
      have hor : db.targets = unsetFirst db₀.targets ∨ db.targets = db₀.targets :=
        (h.targets hv).imp_right And.right
      refine Or.inl ?_
      rcases hor with ht | ht <;> simp [applyMigration, ht]
    polls := fun _ _ => hpolls
    schedules := fun hv => (h.schedules hv).imp_right fun ⟨_, hs⟩ => ⟨by omega, hs⟩
    groups := fun _ hn => by omega }

theorem Progress.dropAttributes (h : Progress db₀ 1 db) (hpolls : db.redbeat.NoPolls) :
    Progress db₀ 2 (applyMigration .dropAttributes db) :=
  Progress.next (n := 1) { h with } (by omega) (fun _ => hpolls) (by omega) (by omega)

theorem Progress.createAttributesIndex (h : Progress db₀ 2 db) :
    Progress db₀ 3 (applyMigration .createAttributesIndex db) :=
  Progress.next (n := 2) { h with } (by omega) (by omega) (by omega) (by omega)

/-- The schedules are dropped when the walks among them are managed. -/
theorem Progress.dropSchedules (h : Progress db₀ 3 db) (hreadable : WalkDocumentsReadable db₀)
    (hwalks : ∀ d ∈ walkDocuments db₀.schedules, WalkManaged db₀ db.redbeat d) :
    Progress db₀ 4 (applyMigration .dropSchedules db) := by
  have hdropped : Progress db₀ 3 (applyMigration .dropSchedules db) :=
    { h with schedules := fun _ => Or.inl ⟨rfl, hreadable, hwalks⟩ }
  exact hdropped.next (by omega) (by omega) (fun _ => ⟨rfl, hreadable, hwalks⟩) (by omega)

theorem Progress.unsetGroups (h : Progress db₀ 4 db) :
    Progress db₀ 5 (applyMigration .unsetGroups db) := by
  have hgroups : ∀ d ∈ (applyMigration .unsetGroups db).inventory, d.group = some none := by
    intro d hd
    obtain ⟨d', -, rfl⟩ := List.mem_map.mp hd
    rfl
  exact Progress.next (n := 4) { h with groups := fun _ hn => by omega }
    (by omega) (by omega) (by omega) fun _ => hgroups

theorem Progress.createEngineIdIndex (h : Progress db₀ 5 db) :
    Progress db₀ 6 (applyMigration .createEngineIdIndex db) := by
  have h' := h.next (by omega) (by omega) (by omega) (by omega)
  rw [applyMigration]
  split
  · exact { h' with }
  · exact h'

/-- The walks of the `schedules` collection, wherever it is interrupted: after a run that
came as far as to drop it there are none left. -/
theorem transformMongodbPeriodicToRedbeat_spec (expiryTime : ℤ) (hv : db₀.version < 4)
    (h : Progress db₀ 3 db) :
    Program.Always applyMigration (Progress db₀ 3) (Outcome (WalkDocumentsReadable db₀) fun db' =>
        Progress db₀ 3 db' ∧ ∀ d ∈ walkDocuments db₀.schedules, WalkManaged db₀ db'.redbeat d)
      (transformMongodbPeriodicToRedbeat expiryTime) db := by
  refine Program.always_perform_bind.mpr ⟨h, ?_⟩
  rcases h.schedules hv with ⟨hnil, hreadable, hwalks⟩ | ⟨-, hschedules⟩
  · rw [hnil]
    exact ⟨h, hreadable, h, hwalks⟩
  · rw [hschedules]
    refine (transformWalks_spec (n := 3) (by omega) (fun _ h => h) (fun _ => by omega) _
      (fun _ hd => hd) (fun _ hd => Or.inl hd) hschedules h).imp ?_
    rintro (err | _) db' - houtcome
    · exact houtcome
    · exact ⟨houtcome.1, houtcome.2.1, houtcome.2.2.2⟩

/-- **A migration gets through when it is passable**, and comes to its version. -/
theorem migrateToVersion_spec (expiryTime : ℤ) (hv : db₀.version ≤ n) (hn : n < 6)
    (h : Progress db₀ n db) :
    Program.Always applyMigration (Progress db₀ n)
      (Outcome (Passable db₀ (n + 1)) (Progress db₀ (n + 1)))
      (migrateToVersion expiryTime (n + 1)) db := by
  have hpass : ∀ m : ℤ, 1 ≤ m → m ≠ 4 → m ≠ 6 → Passable db₀ m := fun m hm h4 h6 =>
    ⟨hm, fun h => absurd h h4, fun h => absurd h h6⟩
  by_cases hneg : n < 0
  · -- there is no function of that name
    have hprogram : migrateToVersion expiryTime (n + 1) =
        (.done (.error .attributeError) : Migration δ (Except PyError Unit)) := by
      simp only [migrateToVersion]
      split_ifs <;> first | omega | rfl
    rw [hprogram]
    refine ⟨h, fun hp => ?_⟩
    have := hp.pos
    omega
  · have hcases : n = 0 ∨ n = 1 ∨ n = 2 ∨ n = 3 ∨ n = 4 ∨ n = 5 := by omega
    rcases hcases with rfl | rfl | rfl | rfl | rfl | rfl
    · refine (deleteAndRerun_spec (by omega) h (fun _ => Progress.unsetAttributes)
      (by omega)).imp ?_
      rintro _ db' - ⟨rfl, h'⟩
      exact ⟨hpass _ (by omega) (by omega) (by omega), h'⟩
    · refine (deleteAndRerun_spec (by omega) h (fun _ => Progress.dropAttributes) (by omega)).imp ?_
      rintro _ db' - ⟨rfl, h'⟩
      exact ⟨hpass _ (by omega) (by omega) (by omega), h'⟩
    · have h' := h.createAttributesIndex
      exact ⟨h, h'.mono (by omega), hpass _ (by omega) (by omega) (by omega), h'⟩
    · refine (transformMongodbPeriodicToRedbeat_spec expiryTime (by omega) h).bind ?_
      rintro (err | _) db' h' houtcome
      · exact ⟨h', fun hp => houtcome (hp.readable rfl)⟩
      · obtain ⟨hreadable, h₁, hwalks⟩ := houtcome
        have h₂ := h₁.dropSchedules hreadable hwalks
        exact ⟨h₁, h₂.mono (by omega),
          ⟨by omega, fun _ => hreadable, fun h => absurd h (by omega)⟩, h₂⟩
    · have h' := h.unsetGroups
      exact ⟨h, h'.mono (by omega), hpass _ (by omega) (by omega) (by omega), h'⟩
    · have h' := h.createEngineIdIndex
      refine Program.always_perform_bind.mpr ⟨h, h'.mono (by omega), ?_⟩
      by_cases hids : db.engineIdRecords.Nodup
      · rw [if_pos hids]
        rw [h.engineIds] at hids
        exact ⟨⟨by omega, fun h => absurd h (by omega), fun _ => hids⟩, h'⟩
      · rw [if_neg hids]
        rw [h.engineIds] at hids
        exact fun hp => hids (hp.engineIds rfl)

/-- **The loop of `migrate_database`**, wherever it is interrupted. -/
theorem migrateVersions_spec (expiryTime : ℤ) (k : ℕ) (hv : db₀.version ≤ n) (hn : n + k = 6)
    (h : Progress db₀ n db) :
    Program.Always applyMigration (Progress db₀ db₀.version)
      (Outcome (∀ m, n < m → m ≤ 6 → Passable db₀ m) (Progress db₀ 6))
      (migrateVersions expiryTime (rangeFrom n k)) db := by
  induction k generalizing n db with
  | zero =>
    obtain rfl : n = 6 := by omega
    exact ⟨h.mono hv, fun m hm hm' => by omega, h⟩
  | succ k ih =>
    have hstep := (migrateToVersion_spec expiryTime hv (by omega) h).weaken fun _ h => h.mono hv
    refine hstep.bind ?_
    rintro (err | _) db' h' houtcome
    · exact ⟨h', fun hall => houtcome (hall _ (by omega) (by omega))⟩
    · obtain ⟨hpass, hnext⟩ := houtcome
      refine (ih (by omega) (by omega) hnext).imp ?_
      rintro (err | _) db'' - houtcome
      · exact fun hall => houtcome fun m hm hm' => hall m (by omega) hm'
      · refine ⟨fun m hm hm' => ?_, houtcome.2⟩
        by_cases hmn : m = n + 1
        · rw [hmn]
          exact hpass
        · exact houtcome.1 m (by omega) hm'

/-- What a run of `migrate_database` leaves, wherever it or an earlier one was interrupted:
the version is stored when all migrations are done. -/
inductive Resumable (db₀ : MigrationDb δ) : MigrationDb δ → Prop
  | unfinished {db : MigrationDb δ} (h : Progress db₀ db₀.version db) : Resumable db₀ db
  | finished {db : MigrationDb δ} (h : Progress db₀ 6 db)
    (hpass : ∀ m, db₀.version < m → m ≤ 6 → Passable db₀ m) :
    Resumable db₀ { db with schemaVersion := some currentSchemaVersion }

/-- The migrations are done, and the version is stored. -/
def Finished (db₀ db' : MigrationDb δ) : Prop :=
  ∃ db, Progress db₀ 6 db ∧ db' = { db with schemaVersion := some currentSchemaVersion }

/-- **A run of `migrate_database`**, wherever it or an earlier one was interrupted. -/
theorem migrateDatabase_spec (expiryTime : ℤ) (hv : db₀.version < currentSchemaVersion)
    (h : Resumable db₀ db) :
    Program.Always applyMigration (Resumable db₀)
      (Outcome (∀ m, db₀.version < m → m ≤ 6 → Passable db₀ m) (Finished db₀))
      (migrateDatabase expiryTime) db := by
  refine Program.always_perform_bind.mpr ⟨h, ?_⟩
  cases h with
  | unfinished h =>
    have hversion : db.version = db₀.version := by rw [MigrationDb.version, h.version]; rfl
    rw [hversion, if_pos hv]
    have hk : db₀.version + (currentSchemaVersion - db₀.version).toNat = 6 := by
      rw [currentSchemaVersion] at hv ⊢
      omega
    refine ((migrateVersions_spec expiryTime _ (Int.le_refl _) hk h).weaken
      fun _ h => Resumable.unfinished h).bind ?_
    rintro (err | _) db' h' houtcome
    · exact ⟨h', houtcome⟩
    · obtain ⟨hpass, hdone⟩ := houtcome
      exact ⟨h', .finished hdone hpass, hpass, db', hdone, rfl⟩
  | finished h hpass =>
    exact ⟨.finished h hpass, hpass, _, h, rfl⟩

/-! ### The postcondition -/

theorem mem_unsetFirst {t : TargetDocument δ} {ts : List (TargetDocument δ)}
    (ht : t ∈ unsetFirst ts) : t.attributes = none ∨ t ∈ ts.tail := by
  cases ts with
  | nil => cases ht
  | cons t₀ ts =>
    rcases List.mem_cons.mp ht with rfl | ht
    · exact Or.inl rfl
    · exact Or.inr ht

theorem mem_unsetFirst_of_tail {t : TargetDocument δ} {ts : List (TargetDocument δ)}
    (ht : t ∈ ts.tail) : t ∈ unsetFirst ts := by
  cases ts with
  | nil => cases ht
  | cons t₀ ts => exact List.mem_cons_of_mem _ ht

/-- An entry with what two walk documents say. -/
theorem WalkRecorded.agree {d d' : ScheduleDocument} {e : RedBeatSchedulerEntry}
    (h : WalkRecorded d e) (h' : WalkRecorded d' e) :
    d.interval = d'.interval ∧ d.kwargs = d'.kwargs := by
  refine ⟨h.interval.trans h'.interval.symm, ?_⟩
  obtain ⟨profile, hkwargs, hprofile⟩ := h.profile
  obtain ⟨profile', hkwargs', hprofile'⟩ := h'.profile
  rw [hkwargs, hkwargs']
  rw [hprofile] at hprofile'
  cases profile <;> cases profile' <;> simp_all

/-- What is recorded of a walk document is recorded of another that agrees with it. -/
theorem WalkRecorded.of_agree {d d' : ScheduleDocument} {e : RedBeatSchedulerEntry}
    (h : WalkRecorded d' e) (htarget : d'.target = d.target)
    (hagree : d'.interval = d.interval ∧ d'.kwargs = d.kwargs) : WalkRecorded d e := by
  refine ⟨htarget ▸ h.target, hagree.1 ▸ h.interval, ?_⟩
  rw [← hagree.2]
  exact h.profile

/-- The migrations get through what can be migrated. -/
theorem passable_of_migratable (h : SchemaMigratable db₀) {m : ℤ} (hm : db₀.version < m) :
    Passable db₀ m where
  pos := by
    have := h.version
    omega
  readable h4 := h.readable (by omega)
  engineIds _ := h.engineIds

/-- What a run that got through has left is what the migration is for exactly when the
database can be migrated. -/
theorem migrated_iff (hv : db₀.version < 6)
    (hpass : ∀ m, db₀.version < m → m ≤ 6 → Passable db₀ m) {db' : MigrationDb δ}
    (h : Finished db₀ db') : Migrated db₀ db' ↔ SchemaMigratable db₀ := by
  obtain ⟨db, hprogress, rfl⟩ := h
  have htargets : db₀.version = 0 → db.targets = unsetFirst db₀.targets := fun h0 =>
    (hprogress.targets h0).resolve_right fun ⟨hlt, _⟩ => by omega
  have hschedules := fun h4 => (hprogress.schedules h4).resolve_right fun ⟨hlt, _⟩ => by omega
  constructor
  · intro hmigrated
    refine ⟨?_, ?_, ?_, fun h4 => (hpass 4 h4 (by omega)).readable rfl, ?_,
      (hpass 6 hv (by omega)).engineIds rfl⟩
    · have := (hpass (db₀.version + 1) (by omega) (by omega)).pos
      omega
    · intro h0 t ht
      refine hmigrated.attributes h0 t ?_
      change t ∈ db.targets
      rw [htargets h0]
      exact mem_unsetFirst_of_tail ht
    · intro h2 k e he htask
      -- elsewhere nothing is deleted
      by_contra hmatch
      rw [Bool.not_eq_true] at hmatch
      exact (hmigrated.polls h2).1 k e ((hprogress.outside k hmatch).trans he) htask
    · intro h4 d hd d' hd' htarget
      obtain ⟨e, he, hrec⟩ := hmigrated.walks h4 d hd
      obtain ⟨e', he', hrec'⟩ := hmigrated.walks h4 d' hd'
      rw [← htarget, he, Option.some.injEq] at he'
      subst he'
      exact hrec.agree hrec'
  · intro hmigratable
    refine ⟨?_, ?_, ?_, fun h5 => hprogress.groups h5 (by omega), rfl⟩
    · intro h0 t ht
      change t ∈ db.targets at ht
      rw [htargets h0] at ht
      rcases mem_unsetFirst ht with hnone | htail
      · exact hnone
      · exact hmigratable.attributes h0 t htail
    · intro h4 d hd
      obtain ⟨d', hd', htarget, e, he, hrec, -⟩ := (hschedules h4).2.2 d hd
      exact ⟨e, he, hrec.of_agree htarget (hmigratable.walks h4 d' hd' d hd htarget)⟩
    · intro h2
      constructor
      · intro k e he htask
        by_cases hmatch : Glob.isMatch allSchedulesPattern k = true
        · exact hprogress.polls h2 (by omega) k e hmatch he htask
        · refine hmatch (hmigratable.polls h2 k e ?_ htask)
          rw [← hprogress.outside k (by simpa using hmatch)]
          exact he
      · intro d hd
        change d ∈ db.schedules at hd
        rw [(hschedules (by omega)).1] at hd
        cases hd

end Progress

/-- **Exactly the databases that can be migrated are**: whatever runs were interrupted
before, the next one returns and leaves what the migration is for. -/
theorem migrateDatabase_migrated_iff (expiryTime : ℤ) (db₀ : MigrationDb δ)
    (hv : db₀.version < currentSchemaVersion) :
    (∀ cuts : List ℕ, ∃ db, Program.run applyMigration (migrateDatabase expiryTime)
        (Program.interrupted applyMigration (migrateDatabase expiryTime) db₀ cuts) =
          (db, .ok ()) ∧ Migrated db₀ db) ↔ SchemaMigratable db₀ := by
  have hrun := fun cuts => Program.Always.resume (fun db => migrateDatabase_spec expiryTime hv)
    (Resumable.unfinished (Progress.refl db₀)) cuts
  constructor
  · intro hall
    obtain ⟨db, hdb, hmigrated⟩ := hall []
    have houtcome := (hrun []).2
    rw [hdb] at houtcome
    exact (migrated_iff hv houtcome.1 houtcome.2).mp hmigrated
  · intro hmigratable cuts
    have houtcome := (hrun cuts).2
    have hpass : ∀ m, db₀.version < m → m ≤ 6 → Passable db₀ m := fun m hm _ =>
      passable_of_migratable hmigratable hm
    generalize hdb : Program.run applyMigration (migrateDatabase expiryTime) _ = result
      at houtcome
    obtain ⟨db, err | _⟩ := result
    · exact absurd hpass houtcome
    · exact ⟨db, rfl, (migrated_iff hv houtcome.1 houtcome.2).mpr hmigratable⟩

/-- A database from before versions were stored, with its targets and schedules. -/
def oldDatabase (targets : List (TargetDocument String)) (schedules : List ScheduleDocument) :
    MigrationDb String where
  schemaVersion := none
  targets := targets
  attributes := []
  attributesIndexed := false
  schedules := schedules
  inventory := [⟨"10.0.0.1", none⟩]
  engineIdRecords := []
  engineIdsUnique := false
  redbeat := ScheduleStore.empty

/-- One target and its walk: after three operations of a run, the next one migrates them. -/
theorem migrateDatabase_migrated_iff_oneTarget :
    ∃ db, Program.run applyMigration (migrateDatabase 60)
        (Program.interrupted applyMigration (migrateDatabase 60)
          (oldDatabase [⟨"10.0.0.1:161", some "attributes"⟩]
            [⟨walkTask, "10.0.0.1:161", some 42000, some (some "walk1")⟩]) [3]) = (db, .ok ()) ∧
      Migrated (oldDatabase [⟨"10.0.0.1:161", some "attributes"⟩]
        [⟨walkTask, "10.0.0.1:161", some 42000, some (some "walk1")⟩]) db := by
  refine (migrateDatabase_migrated_iff 60 _ (by decide)).mpr ⟨?_, ?_, ?_, ?_, ?_, ?_⟩ [3]
  · decide
  · intro _ t ht
    cases ht
  · intro _ k e he
    cases he
  · intro _ d hd
    obtain rfl := List.mem_singleton.mp hd
    exact ⟨rfl, rfl, fun h => by cases h⟩
  · intro _ d hd d' hd' _
    obtain rfl := List.mem_singleton.mp hd
    obtain rfl := List.mem_singleton.mp hd'
    exact ⟨rfl, rfl⟩
  · exact List.nodup_nil

/-- The second of two targets keeps its attributes. -/
theorem migrateDatabase_migrated_fails :
    ¬ ∀ db₀ : MigrationDb String, db₀.version < currentSchemaVersion → ∀ cuts : List ℕ,
      ∃ db, Program.run applyMigration (migrateDatabase 60)
          (Program.interrupted applyMigration (migrateDatabase 60) db₀ cuts) = (db, .ok ()) ∧
        Migrated db₀ db := by
  intro hall
  obtain ⟨db, hdb, hmigrated⟩ := hall (oldDatabase [⟨"10.0.0.1:161", some "attributes"⟩,
    ⟨"10.0.0.2:161", some "attributes"⟩] []) (by decide) []
  have htargets : db.targets = [⟨"10.0.0.1:161", none⟩, ⟨"10.0.0.2:161", some "attributes"⟩] := by
    rw [← congrArg (fun result => result.1.targets) hdb]
    rfl
  have hlost := hmigrated.attributes rfl ⟨"10.0.0.2:161", some "attributes"⟩ (by simp [htargets])
  cases hlost

end Sc4snmp
