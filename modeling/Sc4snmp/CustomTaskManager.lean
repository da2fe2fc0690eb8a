import Sc4snmp.Common.TaskGenerator
import Sc4snmp.Lib.Glob

/-!
# The schedule store and its manager

`customtaskmanager.py` over the Redis keys RedBeat keeps its schedules under.
RedBeat saves an entry under `redbeat:` followed by the entry's name and under
nothing else, which a `ScheduleStore` carries as a field.  A stored hash need not
be readable: its `definition` can be missing or not be JSON.

## Main definitions

* `ScheduleStore`, `fromKey`, `save`, `delete` — the store and RedBeat's operations on it.
* `loadSchedules`, `manageTask`, `deleteUnusedPollTasks` — the manager.

## Main results

* `lookup?_manageTask` — what `manage_task` leaves under each key.
* `lookup?_deleteUnusedPollTasks` — what `delete_unused_poll_tasks` leaves under each key.
-/

namespace Sc4snmp

/-- The key RedBeat keeps an entry under. -/
def redbeatKey (name : String) : String := "redbeat:" ++ name

theorem redbeatKey_injective : Function.Injective redbeatKey := fun _ _ h =>
  String.append_right_inj _ |>.mp h

/-- The key of the walk of a target. -/
def walkKey (target : String) : String := redbeatKey (walkTaskName target)

theorem walkKey_injective : Function.Injective walkKey := by
  intro a b h
  have hname := redbeatKey_injective h
  rwa [walkTaskName, walkTaskName, String.append_left_inj, String.append_right_inj] at hname

/-- What Redis holds under a schedule key. -/
inductive StoredHash
  | definition (e : RedBeatSchedulerEntry)
  | noDefinition
  | invalidJson
  deriving DecidableEq

/-- The schedule hashes of Redis. -/
structure ScheduleStore where
  hashes : Dict String StoredHash
  /-- Entries stand under the key RedBeat saves them under. -/
  keyed : ∀ k e, hashes.get? k = some (.definition e) → k = redbeatKey e.name

namespace ScheduleStore

variable {s : ScheduleStore} {e e' : RedBeatSchedulerEntry} {k : String}

/-- `RedBeatSchedulerEntry.from_key`: a `KeyError` without a definition, a `ValueError`
for one that is not JSON. -/
def fromKey (s : ScheduleStore) (key : String) : Except PyError RedBeatSchedulerEntry :=
  match s.hashes.get? key with
  | none => .error .keyError
  | some .noDefinition => .error .keyError
  | some .invalidJson => .error .valueError
  | some (.definition e) => .ok e

/-- The entry under a key, when there is a readable one. -/
def lookup? (s : ScheduleStore) (key : String) : Option RedBeatSchedulerEntry :=
  (s.fromKey key).toOption

theorem fromKey_eq_ok_iff : s.fromKey k = .ok e ↔ s.lookup? k = some e := by
  rw [lookup?]
  cases s.fromKey k <;> simp [Except.toOption]

theorem lookup?_eq_some_iff : s.lookup? k = some e ↔ s.hashes.get? k = some (.definition e) := by
  rw [← fromKey_eq_ok_iff, fromKey]
  split <;> simp_all

/-- Entries stand under their own keys. -/
theorem key_of_lookup? (h : s.lookup? k = some e) : k = redbeatKey e.name :=
  s.keyed k e (lookup?_eq_some_iff.mp h)

/-- The store without schedules. -/
def empty : ScheduleStore := ⟨Dict.empty, fun _ _ h => by cases h⟩

/-- Every stored hash is a readable entry. -/
def Readable (s : ScheduleStore) : Prop := ∀ k h, s.hashes.get? k = some h → ∃ e, h = .definition e

theorem readable_empty : empty.Readable := fun _ _ h => by cases h

/-- Nothing but a definition that is not JSON makes `from_key` raise anything else than a
`KeyError`. -/
theorem fromKey_error {err : PyError} (h : s.fromKey k = .error err) :
    err = .keyError ∨ err = .valueError := by
  rw [fromKey] at h
  split at h <;> cases h <;> simp

/-- In a readable store a key without an entry is not there at all. -/
theorem Readable.fromKey (hs : s.Readable) (h : s.lookup? k = none) :
    s.fromKey k = .error .keyError := by
  rw [ScheduleStore.fromKey]
  cases hk : s.hashes.get? k with
  | none => rfl
  | some v =>
    obtain ⟨e, rfl⟩ := hs k v hk
    rw [lookup?_eq_some_iff.mpr hk] at h
    cases h

/-! ### RedBeat's operations -/

/-- `RedBeatSchedulerEntry.save`. -/
def save (s : ScheduleStore) (e : RedBeatSchedulerEntry) : ScheduleStore where
  hashes := s.hashes.insert (redbeatKey e.name) (.definition e)
  keyed := by
    intro k e' h
    rw [Dict.get?_insert] at h
    split at h
    · next hk =>
      cases h
      exact hk
    · exact s.keyed k e' h

/-- `RedBeatSchedulerEntry.delete`. -/
def delete (s : ScheduleStore) (e : RedBeatSchedulerEntry) : ScheduleStore where
  hashes := s.hashes.erase (redbeatKey e.name)
  keyed := by
    intro k e' h
    rw [Dict.get?_erase] at h
    split at h
    · cases h
    · exact s.keyed k e' h

@[simp] theorem fromKey_save (s : ScheduleStore) (e : RedBeatSchedulerEntry) (k : String) :
    (s.save e).fromKey k = if k = redbeatKey e.name then .ok e else s.fromKey k := by
  by_cases hk : k = redbeatKey e.name
  · rw [fromKey, save, Dict.get?_insert, if_pos hk, if_pos hk]
  · rw [fromKey, save, Dict.get?_insert, if_neg hk, if_neg hk, fromKey]

@[simp] theorem lookup?_save (s : ScheduleStore) (e : RedBeatSchedulerEntry) (k : String) :
    (s.save e).lookup? k = if k = redbeatKey e.name then some e else s.lookup? k := by
  rw [lookup?, fromKey_save]
  split <;> rfl

@[simp] theorem fromKey_delete (s : ScheduleStore) (e : RedBeatSchedulerEntry) (k : String) :
    (s.delete e).fromKey k = if k = redbeatKey e.name then .error .keyError else s.fromKey k := by
  by_cases hk : k = redbeatKey e.name
  · rw [fromKey, delete, Dict.get?_erase, if_pos hk, if_pos hk]
  · rw [fromKey, delete, Dict.get?_erase, if_neg hk, if_neg hk, fromKey]

@[simp] theorem lookup?_delete (s : ScheduleStore) (e : RedBeatSchedulerEntry) (k : String) :
    (s.delete e).lookup? k = if k = redbeatKey e.name then none else s.lookup? k := by
  rw [lookup?, fromKey_delete]
  split
  · rfl
  · rfl

theorem Readable.save (hs : s.Readable) (e : RedBeatSchedulerEntry) : (s.save e).Readable := by
  intro k h hk
  rw [ScheduleStore.save, Dict.get?_insert] at hk
  split at hk
  · cases hk
    exact ⟨e, rfl⟩
  · exact hs k h hk

theorem Readable.delete (hs : s.Readable) (e : RedBeatSchedulerEntry) : (s.delete e).Readable := by
  intro k h hk
  rw [ScheduleStore.delete, Dict.get?_erase] at hk
  split at hk
  · cases hk
  · exact hs k h hk

/-! ### Loading -/

/-- `_load_schedules`: the readable entries under the keys matching a pattern. -/
def loadSchedules (s : ScheduleStore) (pattern : String) : List RedBeatSchedulerEntry :=
  (s.hashes.keys.filter fun k => Glob.isMatch pattern k).filterMap s.lookup?

theorem mem_loadSchedules {pattern : String} :
    e ∈ s.loadSchedules pattern ↔ ∃ k, Glob.isMatch pattern k = true ∧ s.lookup? k = some e := by
  simp only [loadSchedules, List.mem_filterMap, List.mem_filter]
  constructor
  · rintro ⟨k, ⟨-, hm⟩, hk⟩
    exact ⟨k, hm, hk⟩
  · rintro ⟨k, hm, hk⟩
    exact ⟨k, ⟨Dict.mem_keys_iff.mpr ⟨_, lookup?_eq_some_iff.mp hk⟩, hm⟩, hk⟩

/-- The loop of `_load_schedules` over the keys it finds, with the exceptions it catches. -/
def loadKeys (s : ScheduleStore) : List String → Except PyError (List RedBeatSchedulerEntry)
  | [] => .ok []
  | key :: keys =>
    match s.fromKey key with
    | .ok e => do return e :: (← s.loadKeys keys)
    | .error .keyError => s.loadKeys keys
    | .error .valueError => s.loadKeys keys
    | .error err => .error err

/-- The loop returns, with the entries that are readable. -/
theorem loadKeys_eq (s : ScheduleStore) (keys : List String) :
    s.loadKeys keys = .ok (keys.filterMap s.lookup?) := by
  induction keys with
  | nil => rfl
  | cons key keys ih =>
    unfold loadKeys
    rw [List.filterMap_cons, lookup?]
    cases h : s.fromKey key with
    | ok e =>
      simp only [ih]
      rfl
    | error err =>
      -- nothing else leaves `from_key`
      rcases fromKey_error h with rfl | rfl
      · exact ih
      · exact ih

/-- The pattern of `_get_all_schedules`. -/
def allSchedulesPattern : String := "redbeat:sc4snmp;*"

/-- The pattern of `_get_schedules_by_target`. -/
def targetPattern (target : String) : String := "*" ++ (target ++ ";") ++ "*"

/-- `_get_all_schedules`. -/
def getAllSchedules (s : ScheduleStore) : List RedBeatSchedulerEntry :=
  s.loadSchedules allSchedulesPattern

/-- `_get_schedules_by_target`. -/
def getSchedulesByTarget (s : ScheduleStore) (target : String) : List RedBeatSchedulerEntry :=
  s.loadSchedules (targetPattern target)

/-- The pattern of a plain target selects the keys the target occurs in, followed
by a semicolon — wherever it begins. -/
theorem isMatch_targetPattern {target : String} (h : Glob.Plain target.toList) :
    Glob.isMatch (targetPattern target) k = true ↔
      target.toList ++ [';'] <:+: k.toList := by
  have hplain : Glob.Plain (target ++ ";").toList := by
    rw [String.toList_append]
    intro c hc
    rcases List.mem_append.mp hc with hc | hc
    · exact h c hc
    · rw [show ";".toList = [';'] from rfl, List.mem_singleton] at hc
      subst hc
      decide
  rw [targetPattern, Glob.isMatch_around hplain, String.toList_append]
  rfl

/-! ### Deleting -/

/-- Deletes the entries of a list that meet a test. -/
def deleteWhere (p : RedBeatSchedulerEntry → Bool) (es : List RedBeatSchedulerEntry)
    (s : ScheduleStore) : ScheduleStore :=
  es.foldl (fun s e => if p e then s.delete e else s) s

theorem fromKey_deleteWhere (p : RedBeatSchedulerEntry → Bool) (es : List RedBeatSchedulerEntry)
    (s : ScheduleStore) (k : String) :
    (s.deleteWhere p es).fromKey k =
      if ∃ e ∈ es, p e = true ∧ k = redbeatKey e.name then .error .keyError else s.fromKey k := by
  induction es generalizing s with
  | nil => simp [deleteWhere]
  | cons e es ih =>
    have hcons : s.deleteWhere p (e :: es) =
        (if p e then s.delete e else s).deleteWhere p es := rfl
    rw [hcons, ih]
    by_cases hrest : ∃ e ∈ es, p e = true ∧ k = redbeatKey e.name
    · simp [hrest]
    · by_cases he : p e = true
      · by_cases hk : k = redbeatKey e.name <;> simp_all
      · simp_all

theorem lookup?_deleteWhere (p : RedBeatSchedulerEntry → Bool) (es : List RedBeatSchedulerEntry)
    (s : ScheduleStore) (k : String) :
    (s.deleteWhere p es).lookup? k =
      if ∃ e ∈ es, p e = true ∧ k = redbeatKey e.name then none else s.lookup? k := by
  rw [lookup?, fromKey_deleteWhere]
  split
  · rfl
  · rfl

theorem Readable.deleteWhere (hs : s.Readable) (p : RedBeatSchedulerEntry → Bool)
    (es : List RedBeatSchedulerEntry) : (s.deleteWhere p es).Readable := by
  induction es generalizing s with
  | nil => exact hs
  | cons e es ih =>
    refine ih (s := if p e then s.delete e else s) ?_
    split
    · exact hs.delete e
    · exact hs

/-- Deleting the loaded entries that meet a test clears exactly the keys that
match the pattern and hold such an entry. -/
theorem lookup?_deleteWhere_loadSchedules (p : RedBeatSchedulerEntry → Bool) (pattern : String)
    (s : ScheduleStore) (k : String) :
    (s.deleteWhere p (s.loadSchedules pattern)).lookup? k =
      (s.lookup? k).filter fun e => !(Glob.isMatch pattern k && p e) := by
  rw [lookup?_deleteWhere]
  cases hk : s.lookup? k with
  | none => simp
  | some e =>
    have hiff : (∃ e' ∈ s.loadSchedules pattern, p e' = true ∧ k = redbeatKey e'.name) ↔
        Glob.isMatch pattern k = true ∧ p e = true := by
      constructor
      · rintro ⟨e', hmem, hp, rfl⟩
        obtain ⟨k', hm, hk'⟩ := mem_loadSchedules.mp hmem
        cases key_of_lookup? hk'
        rw [hk, Option.some.injEq] at hk'
        subst hk'
        exact ⟨hm, hp⟩
      · rintro ⟨hm, hp⟩
        exact ⟨e, mem_loadSchedules.mpr ⟨k, hm, hk⟩, hp, key_of_lookup? hk⟩
    simp only [hiff, Option.filter_some]
    cases Glob.isMatch pattern k <;> cases p e <;> simp

/-- `__delete_all_tasks_of_type`. -/
def deleteAllTasksOfType (s : ScheduleStore) (task : String) : ScheduleStore :=
  s.deleteWhere (fun e => e.task = task) s.getAllSchedules

/-- What `__delete_all_tasks_of_type` leaves under each key. -/
theorem lookup?_deleteAllTasksOfType (s : ScheduleStore) (task : String) (k : String) :
    (s.deleteAllTasksOfType task).lookup? k = (s.lookup? k).filter fun e =>
      !(Glob.isMatch allSchedulesPattern k && decide (e.task = task)) :=
  lookup?_deleteWhere_loadSchedules _ _ s k

/-- `delete_unused_poll_tasks`. -/
def deleteUnusedPollTasks (s : ScheduleStore) (target : String) (activeSchedules : List String) :
    ScheduleStore :=
  s.deleteWhere (fun e => e.task = pollTask ∧ e.name ∉ activeSchedules)
    (s.getSchedulesByTarget target)

/-- What `delete_unused_poll_tasks` leaves under each key. -/
theorem lookup?_deleteUnusedPollTasks (s : ScheduleStore) (target : String)
    (activeSchedules : List String) (k : String) :
    (s.deleteUnusedPollTasks target activeSchedules).lookup? k =
      (s.lookup? k).filter fun e => !(Glob.isMatch (targetPattern target) k &&
        decide (e.task = pollTask ∧ e.name ∉ activeSchedules)) :=
  lookup?_deleteWhere_loadSchedules _ _ s k

/-! ### Expiry times -/

/-- `get_chain_of_task_expiries`. -/
def chainOfTaskExpiries (s : ScheduleStore) (taskTypes : List String) : List ℤ :=
  (s.getAllSchedules.filter fun e => e.task ∈ taskTypes).filterMap fun e => e.options.expires

/-- `did_expiry_time_change`: tasks of another expiry time than the new one make it
delete all tasks of the types. -/
def didExpiryTimeChange (s : ScheduleStore) (newExpiryTime : ℤ) (taskTypes : List String) :
    Bool × ScheduleStore :=
  if (s.chainOfTaskExpiries taskTypes).all (· = newExpiryTime) then (false, s)
  else (true, taskTypes.foldl deleteAllTasksOfType s)

theorem mem_chainOfTaskExpiries {taskTypes : List String} {x : ℤ} :
    x ∈ s.chainOfTaskExpiries taskTypes ↔ ∃ k e, Glob.isMatch allSchedulesPattern k = true ∧
      s.lookup? k = some e ∧ e.task ∈ taskTypes ∧ e.options.expires = some x := by
  simp only [chainOfTaskExpiries, List.mem_filterMap, List.mem_filter, getAllSchedules,
    mem_loadSchedules, decide_eq_true_eq]
  constructor
  · rintro ⟨e, ⟨⟨k, hm, hk⟩, htask⟩, hx⟩
    exact ⟨k, e, hm, hk, htask, hx⟩
  · rintro ⟨k, e, hm, hk, htask, hx⟩
    exact ⟨e, ⟨⟨k, hm, hk⟩, htask⟩, hx⟩

/-- What deleting all tasks of several types leaves under each key. -/
theorem lookup?_foldl_deleteAllTasksOfType (taskTypes : List String) (s : ScheduleStore)
    (k : String) : (taskTypes.foldl deleteAllTasksOfType s).lookup? k =
      (s.lookup? k).filter fun e =>
      !(Glob.isMatch allSchedulesPattern k && decide (e.task ∈ taskTypes)) := by
  induction taskTypes generalizing s with
  | nil => cases h : s.lookup? k <;> simp [h, Option.filter_some]
  | cons t ts ih =>
    rw [List.foldl_cons, ih, lookup?_deleteAllTasksOfType]
    cases h : s.lookup? k with
    | none => rfl
    | some e =>
      by_cases ht : e.task = t <;> cases hm : Glob.isMatch allSchedulesPattern k <;>
        simp [ht, Option.filter_some]

/-- After `did_expiry_time_change`, every entry was there before, and an entry of
one of the types under a schedule key with an expiry time has the new one. -/
theorem didExpiryTimeChange_spec (s : ScheduleStore) (newExpiryTime : ℤ)
    (taskTypes : List String) {k : String} {e : RedBeatSchedulerEntry}
    (he : (s.didExpiryTimeChange newExpiryTime taskTypes).2.lookup? k = some e) :
    s.lookup? k = some e ∧ (Glob.isMatch allSchedulesPattern k = true → e.task ∈ taskTypes →
      ∀ x, e.options.expires = some x → x = newExpiryTime) := by
  rw [didExpiryTimeChange] at he
  split at he
  · next hall =>
    refine ⟨he, fun hm htask x hx => ?_⟩
    rw [List.all_eq_true] at hall
    simpa using hall x (mem_chainOfTaskExpiries.mpr ⟨k, e, hm, he, htask, hx⟩)
  · rw [lookup?_foldl_deleteAllTasksOfType, Option.filter_eq_some_iff] at he
    refine ⟨he.1, fun hm htask => ?_⟩
    simp [hm, htask] at he

/-- Every walk and poll schedule stands under a key `_get_all_schedules` looks at. -/
theorem isMatch_allSchedulesPattern (name : String) :
    Glob.isMatch allSchedulesPattern (redbeatKey ("sc4snmp;" ++ name)) = true := by
  have hpattern : allSchedulesPattern = "redbeat:sc4snmp;" ++ "*" := rfl
  rw [hpattern, Glob.isMatch_prefix (by decide), redbeatKey, String.toList_append,
    String.toList_append]
  exact ⟨name.toList, rfl⟩

theorem isMatch_walkKey (target : String) :
    Glob.isMatch allSchedulesPattern (walkKey target) = true := by
  rw [walkKey, walkTaskName, String.append_assoc]
  exact isMatch_allSchedulesPattern _

/-- `walk_task_exists`. -/
def walkTaskExists (s : ScheduleStore) (target : String) : Except PyError Bool :=
  match s.fromKey (redbeatKey (walkTaskName target)) with
  | .ok _ => .ok true
  | .error .keyError => .ok false
  | .error err => .error err

theorem walkTaskExists_error_iff {target : String} :
    (∃ err, s.walkTaskExists target = .error err) ↔
      s.fromKey (redbeatKey (walkTaskName target)) = .error .valueError := by
  rw [walkTaskExists]
  cases h : s.fromKey (redbeatKey (walkTaskName target)) with
  | ok e => simp
  | error err => rcases fromKey_error h with rfl | rfl <;> simp

theorem walkTaskExists_eq_true {target : String} (h : s.walkTaskExists target = .ok true) :
    ∃ e, s.lookup? (redbeatKey (walkTaskName target)) = some e := by
  rw [walkTaskExists] at h
  split at h
  · next e he => exact ⟨e, fromKey_eq_ok_iff.mp he⟩
  · cases h
  · cases h

theorem walkTaskExists_eq_false {target : String} (h : s.walkTaskExists target = .ok false) :
    s.lookup? (redbeatKey (walkTaskName target)) = none := by
  rw [walkTaskExists] at h
  split at h
  · cases h
  · next he =>
    rw [lookup?, he]
    rfl
  · cases h

end ScheduleStore

/-! ### Writing -/

/-- The fields `manage_task` sets on an entry that is there: neither the task nor
its options are among them. -/
def RedBeatSchedulerEntry.setArguments (e : RedBeatSchedulerEntry) (d : TaskData) :
    RedBeatSchedulerEntry :=
  { e with
    target := d.target.or e.target
    args := d.args.getD e.args
    kwargs := d.kwargs.getD e.kwargs
    runImmediately := d.runImmediately.getD e.runImmediately
    schedule := d.schedule.getD e.schedule
    enabled := d.enabled.getD e.enabled }

/-- The fields of `REQUIRED_NEW_TASK_FIELDS` a definition does not give. -/
def TaskData.missingFields (d : TaskData) : List String :=
  (if d.name.isNone then ["name"] else []) ++ (if d.task.isNone then ["task"] else []) ++
    (if d.schedule.isNone then ["schedule"] else []) ++ (if d.app then [] else ["app"])

/-- `RedBeatSchedulerEntry(**task_data)`, for a definition that misses no field. -/
def TaskData.newEntry (d : TaskData) : RedBeatSchedulerEntry where
  name := d.name.getD ""
  task := d.task.getD ""
  target := d.target
  args := d.args.getD []
  kwargs := d.kwargs.getD Dict.empty
  options := d.options.getD {}
  schedule := d.schedule.getD 0
  enabled := d.enabled.getD true
  runImmediately := d.runImmediately.getD false

namespace ScheduleStore

/-- `manage_task`.  A hash that is not JSON makes it raise. -/
def manageTask (s : ScheduleStore) (d : TaskData) : Except PyError ScheduleStore :=
  match s.fromKey (redbeatKey (d.name.getD "None")) with
  | .ok e => .ok (s.save (e.setArguments d))
  | .error .keyError => if d.missingFields.isEmpty then .ok (s.save d.newEntry) else .ok s
  | .error err => .error err

/-- The entry `manage_task` makes of what stands under the task's key. -/
def managedEntry (old : Option RedBeatSchedulerEntry) (d : TaskData) : RedBeatSchedulerEntry :=
  match old with
  | some e => e.setArguments d
  | none => d.newEntry

/-- What `manage_task` leaves under each key, when it returns. -/
theorem fromKey_manageTask {s s' : ScheduleStore} {d : TaskData} {name : String}
    (hname : d.name = some name) (hd : d.missingFields = []) (hrun : s.manageTask d = .ok s')
    (k : String) : s'.fromKey k =
      if k = redbeatKey name then .ok (managedEntry (s.lookup? k) d) else s.fromKey k := by
  rw [manageTask, hname, Option.getD_some, hd] at hrun
  split at hrun
  · next e he =>
    -- the entry is there: it gets the arguments and is saved under its own name
    cases hrun
    have he := fromKey_eq_ok_iff.mp he
    have hkey : redbeatKey name = redbeatKey e.name := key_of_lookup? he
    rw [fromKey_save, RedBeatSchedulerEntry.setArguments, ← hkey]
    split
    · next hk =>
      rw [hk, he]
      rfl
    · rfl
  · next he =>
    cases hrun
    have he : s.lookup? (redbeatKey name) = none := by rw [lookup?, he]; rfl
    rw [fromKey_save, TaskData.newEntry, hname, Option.getD_some]
    split
    · next hk =>
      rw [hk, he, managedEntry, TaskData.newEntry, hname]
      rfl
    · rfl
  · cases hrun

theorem lookup?_manageTask {s s' : ScheduleStore} {d : TaskData} {name : String}
    (hname : d.name = some name) (hd : d.missingFields = []) (hrun : s.manageTask d = .ok s')
    (k : String) : s'.lookup? k =
      if k = redbeatKey name then some (managedEntry (s.lookup? k) d) else s.lookup? k := by
  rw [lookup?, fromKey_manageTask hname hd hrun]
  split
  · rfl
  · rfl

/-- `manage_task` raises when what stands under the task's key is not JSON. -/
theorem manageTask_error_iff {s : ScheduleStore} {d : TaskData} {name : String}
    (hname : d.name = some name) : (∃ err, s.manageTask d = .error err) ↔
      s.fromKey (redbeatKey name) = .error .valueError := by
  rw [manageTask, hname, Option.getD_some]
  cases h : s.fromKey (redbeatKey name) with
  | ok e => simp
  | error err =>
    rcases fromKey_error h with rfl | rfl
    · by_cases hd : d.missingFields.isEmpty = true <;> simp [hd]
    · simp

/-- In a readable store `manage_task` returns a readable store. -/
theorem manageTask_of_readable {s : ScheduleStore} (hs : s.Readable) (d : TaskData) :
    ∃ s', s.manageTask d = .ok s' ∧ s'.Readable := by
  rw [manageTask]
  cases he : s.lookup? (redbeatKey (d.name.getD "None")) with
  | none =>
    rw [hs.fromKey he]
    by_cases hd : d.missingFields.isEmpty = true
    · exact ⟨_, if_pos hd, hs.save _⟩
    · exact ⟨_, if_neg hd, hs⟩
  | some e =>
    rw [fromKey_eq_ok_iff.mpr he]
    exact ⟨_, rfl, hs.save _⟩

end ScheduleStore

end Sc4snmp
