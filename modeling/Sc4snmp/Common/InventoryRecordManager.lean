import Sc4snmp.Common.InventoryRecord
import Sc4snmp.Common.Profile
import Sc4snmp.CustomTaskManager

/-!
# The inventory record manager

The functions of `common/inventory_processor.py` that turn an inventory record into
documents and schedules, and remove them again: `InventoryRecordManager`, with the
target keys it goes by.  An operation that raises leaves what it has written.

`delete_all_tasks_of_host` calls into RedBeat, whose code is not part of the
repository; it is a parameter, of which only `RemovesOnly` is ever assumed.

## Main definitions

* `transformAddressToKey`, `transformKeyToAddress` — target keys.
* `InventoryDb` — the collections and the schedules.
* `InventoryRecordManager.update`, `InventoryRecordManager.delete`.
-/

namespace Sc4snmp

/-! ### Target keys -/

/-- `transform_address_to_key`. -/
def transformAddressToKey (address port : PyVal) : Except PyError String :=
  if !port.truthy then .ok (address.format ++ ":161")
  else do
    let number ← port.toInt
    if number = 161 then .ok (address.format ++ ":161")
    else .ok (address.format ++ ":" ++ port.format)

/-- A key of a number is the number, the default port for none. -/
theorem transformAddressToKey_int (address : PyVal) (port : ℤ) :
    transformAddressToKey address (.int port) =
      .ok (address.format ++ ":" ++ toString (if port = 0 then 161 else port)) := by
  have hdefault : address.format ++ ":161" = address.format ++ ":" ++ toString (161 : ℤ) := by
    rw [String.append_assoc]
    rfl
  rw [transformAddressToKey, PyVal.truthy_int, PyVal.toInt_int]
  by_cases hzero : port = 0
  · rw [if_pos (by simp [hzero]), if_pos hzero, hdefault]
  · rw [if_neg (by simp [hzero]), if_neg hzero]
    by_cases hport : port = 161
    · simp only [hport, hdefault, if_true, bind, Except.bind]
    · simp only [hport, if_false, bind, Except.bind]
      rfl

/-- `transform_key_to_address`. -/
def transformKeyToAddress (target : String) : Except PyError (String × ℤ) :=
  match Text.rsplitOnce ':' target with
  | none => .ok (target, 161)
  | some (address, port) => do
    let port ← (PyVal.str port).toInt
    return (address, port)

/-- A key of an address and a port is read back. -/
theorem transformKeyToAddress_key (address : String) {port : ℤ} (h : 0 ≤ port ∧ port ≤ 65535) :
    transformKeyToAddress (address ++ ":" ++ toString port) = .ok (address, port) := by
  obtain ⟨m, rfl⟩ := Int.eq_ofNat_of_zero_le h.1
  have hsplit : Text.rsplitOnce ':' (address ++ ":" ++ toString (m : ℤ)) =
      some (address, toString (m : ℤ)) := by
    refine Text.rsplitOnce_append (fun hcolon => ?_) ?_
    · exact absurd (Text.isIntChar_toString m ':' hcolon) (by decide)
    · rw [String.toList_append, String.toList_append, List.append_assoc]
      rfl
  rw [transformKeyToAddress, hsplit]
  simp only [PyVal.toInt, Text.parseInt_toString_of_le (by omega : m ≤ 65535)]
  rfl

namespace InventoryRecord

/-- The address of a record as a value. -/
def addressVal (ir : InventoryRecord) : PyVal :=
  match ir.address with
  | some address => .str address
  | none => .none

/-- The target key of a record: no port at all counts as the default one. -/
def target (ir : InventoryRecord) : String :=
  ir.addressVal.format ++ ":" ++ toString (if ir.port = 0 then 161 else ir.port)

/-- The fields `update_one` finds the document of a record by. -/
def docKey (ir : InventoryRecord) : Option String × ℤ := (ir.address, ir.port)

end InventoryRecord

/-! ### Walk tasks -/

/-- `gen_walk_task`, under a `CHAIN_OF_TASKS_EXPIRY_TIME`. -/
def genWalkTask (expiryTime : ℤ) (ir : InventoryRecord) (profile : Option String) (group : PyVal) :
    TaskData :=
  WalkTaskGenerator.generateTaskDefinition expiryTime
    { target := ir.target
      schedulePeriod := ir.walkInterval
      group := group
      profile := profile }

/-- The settings one inventory load runs with. -/
structure LoadConfig where
  /-- The profiles of the profiles collection. -/
  runtimeProfiles : Dict String ProfileBody
  enableFullWalk : Bool
  chainOfTasksExpiryTime : ℤ

/-- `InventoryRecordManager.return_walk_profile`: the last of the inventory's walk
profiles, or the default one. -/
def returnWalkProfile (cfg : LoadConfig) (inventoryProfiles : List String) : Option String :=
  if cfg.enableFullWalk then none
  else
    let walkProfiles := inventoryProfiles.filter fun p =>
      (cfg.runtimeProfiles.get? p).bind ProfileBody.conditionType = some "walk"
    match walkProfiles.getLast? with
    | none => some "WalkProfile"
    | some p => if p = "" then some "WalkProfile" else some p

/-! ### The manager -/

/-- What an inventory load writes to. -/
structure InventoryDb where
  schedules : ScheduleStore
  /-- The inventory collection, by address and port. -/
  inventory : Dict (Option String × ℤ) InventoryRecord
  /-- The addresses of the documents of the targets collection. -/
  targets : List String
  /-- The addresses of the documents of the attributes collection. -/
  attributes : List String

namespace InventoryDb

/-- Nothing loaded yet. -/
def empty : InventoryDb := ⟨ScheduleStore.empty, Dict.empty, [], []⟩

end InventoryDb

/-- `RedBeatSchedulerEntry.delete_schedules_by_target`. -/
abbrev DeleteSchedulesByTarget := ScheduleStore → String → ScheduleStore

/-- Deleting schedules leaves no entry that was not there. -/
def RemovesOnly (deleteSchedules : DeleteSchedulesByTarget) : Prop :=
  ∀ s target k e, (deleteSchedules s target).lookup? k = some e → s.lookup? k = some e

namespace InventoryRecordManager

/-- `InventoryRecordManager.delete`. -/
def delete (deleteSchedules : DeleteSchedulesByTarget) (db : InventoryDb) (target : String) :
    InventoryDb × Except PyError Unit :=
  match transformKeyToAddress target with
  | .error err => (db, .error err)
  | .ok (address, port) =>
    ({ schedules := deleteSchedules db.schedules target
       inventory := db.inventory.erase (some address, port)
       targets := db.targets.filter (· ≠ target)
       attributes := db.attributes.filter (· ≠ target) }, .ok ())

/-- The beginning of `update`: the walk profile, and the record with the walk
interval of its line unless the walk is a full one. -/
def walkSettings (cfg : LoadConfig) (ir : InventoryRecord) (source : SourceRecord) :
    Except PyError (Option String × InventoryRecord) := do
  let profiles ← match ← source.getItem "profiles" with
    | .str profiles => .ok (Text.splitOn ';' profiles)
    | _ => .error .attributeError
  let walkProfile := returnWalkProfile cfg profiles
  if walkProfile.isSome then
    let interval ← source.getItem "walk_interval"
    let walkInterval ← interval.toInt
    return (walkProfile, { ir with walkInterval })
  else return (walkProfile, ir)

/-- The end of `update`: the walk goes to the scheduler. -/
def scheduleWalk (db : InventoryDb) (task : TaskData) : InventoryDb × Except PyError Unit :=
  match db.schedules.manageTask task with
  | .ok schedules => ({ db with schedules }, .ok ())
  | .error err => (db, .error err)

/-- `InventoryRecordManager.update`.  The scheduler is reached for a record that is
new or modified, for every record after a change of the expiry time, and for one
whose walk is missing. -/
def update (cfg : LoadConfig) (expiryTimeChanged : Bool) (db : InventoryDb) (ir : InventoryRecord)
    (source : SourceRecord) : InventoryDb × Except PyError Unit :=
  match walkSettings cfg ir source with
  | .error err => (db, .error err)
  | .ok (walkProfile, ir) =>
    let written := { db with inventory := db.inventory.insert ir.docKey ir }
    let task := genWalkTask cfg.chainOfTasksExpiryTime ir walkProfile (source.get "group")
    if db.inventory.get? ir.docKey ≠ some ir then scheduleWalk written task
    else if expiryTimeChanged then scheduleWalk written task
    else match written.schedules.walkTaskExists ir.target with
      | .error err => (written, .error err)
      | .ok true => (written, .ok ())
      | .ok false => scheduleWalk written task

theorem scheduleWalk_error_iff (db : InventoryDb) (expiryTime : ℤ) (ir : InventoryRecord)
    (profile : Option String) (group : PyVal) :
    (∃ err, (scheduleWalk db (genWalkTask expiryTime ir profile group)).2 = .error err) ↔
      db.schedules.fromKey (redbeatKey (walkTaskName ir.target)) = .error .valueError := by
  have hname : (genWalkTask expiryTime ir profile group).name = some (walkTaskName ir.target) := rfl
  rw [← ScheduleStore.manageTask_error_iff hname, scheduleWalk]
  cases db.schedules.manageTask (genWalkTask expiryTime ir profile group) <;> simp

/-- `update` raises when it cannot read the settings of the walk from the line, or the
walk that is stored. -/
theorem update_error_iff {cfg : LoadConfig} {expiryTimeChanged : Bool} {db : InventoryDb}
    {ir : InventoryRecord} {source : SourceRecord} :
    (∃ err, (update cfg expiryTimeChanged db ir source).2 = .error err) ↔
      (∀ settings, walkSettings cfg ir source ≠ .ok settings) ∨
      ∃ walkProfile record, walkSettings cfg ir source = .ok (walkProfile, record) ∧
        db.schedules.fromKey (redbeatKey (walkTaskName record.target)) = .error .valueError := by
  rw [update]
  cases hset : walkSettings cfg ir source with
  | error err => simp
  | ok settings =>
    obtain ⟨walkProfile, record⟩ := settings
    have hschedule := scheduleWalk_error_iff
      { db with inventory := db.inventory.insert record.docKey record } cfg.chainOfTasksExpiryTime
      record walkProfile (source.get "group")
    have hright : ((∀ settings, Except.ok (walkProfile, record) ≠
        (.ok settings : Except PyError (Option String × InventoryRecord))) ∨
        ∃ walkProfile' record', (Except.ok (walkProfile, record) :
          Except PyError (Option String × InventoryRecord)) = .ok (walkProfile', record') ∧
          db.schedules.fromKey (redbeatKey (walkTaskName record'.target)) = .error .valueError) ↔
        db.schedules.fromKey (redbeatKey (walkTaskName record.target)) = .error .valueError := by
      simp
    rw [hright]
    by_cases hdoc : db.inventory.get? record.docKey ≠ some record
    · simp only [if_pos hdoc]
      exact hschedule
    by_cases hchanged : expiryTimeChanged = true
    · simp only [if_neg hdoc, if_pos hchanged]
      exact hschedule
    simp only [if_neg hdoc, if_neg hchanged]
    rw [← ScheduleStore.walkTaskExists_error_iff]
    cases hwalk : db.schedules.walkTaskExists record.target with
    | error err => simp
    | ok walkExists =>
      have hfine : ¬ db.schedules.fromKey (redbeatKey (walkTaskName record.target)) =
          .error .valueError := by
        rw [← ScheduleStore.walkTaskExists_error_iff, hwalk]
        simp
      cases walkExists with
      | true => simp
      | false =>
        have hnot := hschedule.not.mpr hfine
        simpa using hnot

end InventoryRecordManager

end Sc4snmp
