import Sc4snmp.Inventory.GroupRemoval

/-!
# Expiry times after a load

`manage_task` never changes the options of an entry.  A load whose settings have another
expiry time than some walk or poll therefore deletes all walks and polls, and updating the
records creates the walks anew.

The manager looks at the keys beginning with `redbeat:sc4snmp;`.  An entry of another task
stays, unless it stands under the key of the walk of a record: it is taken for the walk.

## Main definitions

* `Reconciled` — no walk or poll has another expiry time than the configured one.
* `ExpiryReconciled` — what a load owes the schedules.

## Main results

* `reconciled_update` — an update keeps the walks and polls reconciled.
* `expiry_reconciled` — **after every load the expiry times are reconciled**.
-/

namespace Sc4snmp

open InventoryRecordManager ScheduleStore

/-! ### The detection -/

/-- The key is one the manager looks at. -/
def IsScheduleKey (k : String) : Prop := Glob.isMatch allSchedulesPattern k = true

/-- A walk or poll with another expiry time than the configured one. -/
def Deviates (s : ScheduleStore) (x : ℤ) : Prop :=
  ∃ k e y, IsScheduleKey k ∧ s.lookup? k = some e ∧ e.task ∈ expiringTasks ∧
    e.options.expires = some y ∧ y ≠ x

/-- No walk or poll has another expiry time than the configured one. -/
def Reconciled (s : ScheduleStore) (x : ℤ) : Prop := ¬ Deviates s x

/-- A deviating entry is detected, whatever is unreadable. -/
theorem didExpiryTimeChange_iff (s : ScheduleStore) (x : ℤ) :
    (s.didExpiryTimeChange x expiringTasks).1 = true ↔ Deviates s x := by
  have hall : (s.chainOfTaskExpiries expiringTasks).all (· = x) = true ↔ Reconciled s x := by
    rw [List.all_eq_true]
    constructor
    · rintro h ⟨k, e, y, hk, he, htask, hy, hne⟩
      have hmem := mem_chainOfTaskExpiries.mpr ⟨k, e, hk, he, htask, hy⟩
      exact hne (of_decide_eq_true (h y hmem))
    · intro h y hmem
      obtain ⟨k, e, hk, he, htask, hy⟩ := mem_chainOfTaskExpiries.mp hmem
      rw [decide_eq_true_eq]
      by_contra hne
      exact h ⟨k, e, y, hk, he, htask, hy, hne⟩
  rw [didExpiryTimeChange]
  split
  · next h => exact iff_of_false Bool.false_ne_true (hall.mp h)
  · next h => exact iff_of_true rfl (not_not.mp (hall.not.mp h))

/-- Then all walks and polls are deleted, whatever is unreadable. -/
theorem lookup?_didExpiryTimeChange (s : ScheduleStore) (x : ℤ) (k : String) :
    (s.didExpiryTimeChange x expiringTasks).2.lookup? k =
      if (s.didExpiryTimeChange x expiringTasks).1 then (s.lookup? k).filter fun e =>
        !(Glob.isMatch allSchedulesPattern k && decide (e.task ∈ expiringTasks))
      else s.lookup? k := by
  rw [didExpiryTimeChange]
  split
  · rfl
  · exact lookup?_foldl_deleteAllTasksOfType expiringTasks s k

theorem reconciled_didExpiryTimeChange (s : ScheduleStore) (x : ℤ) :
    Reconciled (s.didExpiryTimeChange x expiringTasks).2 x := by
  rintro ⟨k, e, y, hk, he, htask, hy, hne⟩
  exact hne ((didExpiryTimeChange_spec s x expiringTasks he).2 hk htask y hy)

/-! ### The updates -/

/-- What scheduling a walk leaves under each key. -/
theorem lookup?_manageWalk {s s' : ScheduleStore} {x : ℤ} {record : InventoryRecord}
    {walkProfile : Option String} {group : PyVal}
    (h : s.manageTask (genWalkTask x record walkProfile group) = .ok s') (k : String) :
    s'.lookup? k = if k = walkKey record.target then
      some (managedEntry (s.lookup? k) (genWalkTask x record walkProfile group))
      else s.lookup? k :=
  lookup?_manageTask rfl rfl h k

/-- Scheduling a walk changes the options of no entry, and gives a new one the configured
expiry time. -/
theorem reconciled_manageWalk {s s' : ScheduleStore} {x : ℤ} {record : InventoryRecord}
    {walkProfile : Option String} {group : PyVal} (hs : Reconciled s x)
    (h : s.manageTask (genWalkTask x record walkProfile group) = .ok s') : Reconciled s' x := by
  rintro ⟨k, e, y, hk, he, htask, hy, hne⟩
  rw [lookup?_manageWalk h] at he
  split at he
  · cases hold : s.lookup? k with
    | some old =>
      rw [hold] at he
      cases he
      exact hs ⟨k, old, y, hk, hold, htask, hy, hne⟩
    | none =>
      rw [hold] at he
      cases he
      exact hne (Option.some.inj hy).symm
  · exact hs ⟨k, e, y, hk, he, htask, hy, hne⟩

/-- An update keeps the walks and polls reconciled. -/
theorem reconciled_update {config : LoadConfig} (expiryTimeChanged : Bool) (db : InventoryDb)
    (ir : InventoryRecord) (source : SourceRecord)
    (h : Reconciled db.schedules config.chainOfTasksExpiryTime) :
    Reconciled (update config expiryTimeChanged db ir source).1.schedules
      config.chainOfTasksExpiryTime := by
  cases hset : walkSettings config ir source with
  | error err =>
    rw [update, hset]
    exact h
  | ok settings =>
    obtain ⟨walkProfile, record⟩ := settings
    obtain ⟨-, -, hschedules⟩ := update_effect expiryTimeChanged db hset
    rcases hschedules with hsame | hrun
    · rw [hsame]
      exact h
    · exact reconciled_manageWalk h hrun

/-- An update writes under the key of the walk of its record only. -/
theorem lookup?_update_of_ne (config : LoadConfig) (expiryTimeChanged : Bool) (db : InventoryDb)
    (ir : InventoryRecord) (source : SourceRecord) {k : String} (hk : k ≠ walkKey ir.target) :
    (update config expiryTimeChanged db ir source).1.schedules.lookup? k =
      db.schedules.lookup? k := by
  cases hset : walkSettings config ir source with
  | error err => rw [update, hset]
  | ok settings =>
    obtain ⟨walkProfile, record⟩ := settings
    obtain ⟨-, -, hschedules⟩ := update_effect expiryTimeChanged db hset
    rcases hschedules with hsame | hrun
    · rw [hsame]
    · rw [lookup?_manageWalk hrun, (walkSettings_record hset).2, if_neg hk]

/-! ### A load -/

/-- The update of a record, by its line. -/
def updateEvent (u : InventoryRecord × SourceRecord) : LoadEvent := .update u.1 u.2

/-- A load that compares the expiry times and then updates records. -/
def updatingLoad (config : LoadConfig) (updates : List (InventoryRecord × SourceRecord)) :
    List LoadEvent :=
  .beginLoad config :: updates.map updateEvent

/-- What the updates of a load leave. -/
theorem updates_spec (deleteSchedules : DeleteSchedulesByTarget) (st : LoadState)
    (updates : List (InventoryRecord × SourceRecord))
    (h : Reconciled st.db.schedules st.config.chainOfTasksExpiryTime) :
    let st' := Run.final (loadStep deleteSchedules) st (updates.map updateEvent)
    Reconciled st'.db.schedules st.config.chainOfTasksExpiryTime ∧
      ∀ k, (∀ u ∈ updates, k ≠ walkKey u.1.target) →
        st'.db.schedules.lookup? k = st.db.schedules.lookup? k := by
  induction updates generalizing st with
  | nil => exact ⟨h, fun _ _ => rfl⟩
  | cons u updates ih =>
    obtain ⟨ir, source⟩ := u
    have hone := reconciled_update st.expiryTimeChanged st.db ir source h
    obtain ⟨hrest, hothers⟩ := ih (loadStep deleteSchedules st (.update ir source)) hone
    refine ⟨hrest, ?_⟩
    intro k hk
    obtain ⟨hfirst, hlater⟩ := List.forall_mem_cons.mp hk
    exact (hothers k hlater).trans (lookup?_update_of_ne _ _ _ _ _ hfirst)

/-- What a load owes the schedules: the deviating entries are detected and deleted whatever
is unreadable, none is left in the end, and the other tasks stay. -/
structure ExpiryReconciled (s s' : ScheduleStore) (x : ℤ)
    (updates : List (InventoryRecord × SourceRecord)) : Prop where
  loads : ∀ keys, s.loadKeys keys = .ok (keys.filterMap s.lookup?)
  detects : (s.didExpiryTimeChange x expiringTasks).1 = true ↔ Deviates s x
  deletes : Deviates s x → ∀ k e, IsScheduleKey k →
    (s.didExpiryTimeChange x expiringTasks).2.lookup? k = some e → e.task ∉ expiringTasks
  reconciled : Reconciled s' x
  others : ∀ k e, (∀ u ∈ updates, k ≠ walkKey u.1.target) → e.task ∉ expiringTasks →
    (s'.lookup? k = some e ↔ s.lookup? k = some e)

/-- **After every load the expiry times are reconciled.** -/
theorem expiry_reconciled (deleteSchedules : DeleteSchedulesByTarget) (st : LoadState)
    (config : LoadConfig) (updates : List (InventoryRecord × SourceRecord)) :
    ExpiryReconciled st.db.schedules
      (Run.final (loadStep deleteSchedules) st (updatingLoad config updates)).db.schedules
      config.chainOfTasksExpiryTime updates := by
  let x := config.chainOfTasksExpiryTime
  let begun := loadStep deleteSchedules st (.beginLoad config)
  have hdetects := didExpiryTimeChange_iff st.db.schedules x
  have hbegun : ∀ k, begun.db.schedules.lookup? k = _ :=
    lookup?_didExpiryTimeChange st.db.schedules x
  obtain ⟨hreconciled, hkept⟩ := updates_spec deleteSchedules begun updates
    (reconciled_didExpiryTimeChange st.db.schedules x)
  refine ⟨loadKeys_eq _, hdetects, ?_, hreconciled, ?_⟩
  · intro hdeviates k e hk he
    rw [lookup?_didExpiryTimeChange, if_pos (hdetects.mpr hdeviates),
      Option.filter_eq_some_iff] at he
    rw [IsScheduleKey] at hk
    simpa [hk] using he.2
  · intro k e hk htask
    have hfilter : begun.db.schedules.lookup? k = some e ↔
        st.db.schedules.lookup? k = some e := by
      rw [hbegun]
      split
      · rw [Option.filter_eq_some_iff]
        simp [htask]
      · exact Iff.rfl
    rw [← hfilter, ← hkept k hk]
    exact Iff.rfl

/-! ### Names of others -/

/-- A discovery under the name of the walk of `10.0.0.1`. -/
def misnamedDiscovery : RedBeatSchedulerEntry where
  name := walkTaskName "10.0.0.1:161"
  task := discoveryTask
  target := none
  args := []
  kwargs := Dict.empty
  options := {}
  schedule := 3600
  enabled := true
  runImmediately := false

/-- A walk under a name the manager does not look at. -/
def foreignWalk : RedBeatSchedulerEntry :=
  { misnamedDiscovery with name := "nightly", task := walkTask, options := { expires := some 30 } }

/-- A state with both schedules. -/
def misnamedState : LoadState :=
  { LoadState.initial with
    db := { InventoryDb.empty with
      schedules := (ScheduleStore.empty.save misnamedDiscovery).save foreignWalk } }

/-- The state after a load that updates the record of `10.0.0.1`, with the expiry time 60. -/
def misnamedLoaded : LoadState :=
  Run.final (loadStep keepSchedules) misnamedState
    (updatingLoad (bigWalkConfig true) [(bigWalkHost, bigWalkLine)])

/-- The discovery is overwritten, and the walk keeps its expiry time. -/
theorem expiry_reconciled_fails :
    misnamedState.db.schedules.lookup? (walkKey "10.0.0.1:161") = some misnamedDiscovery ∧
      misnamedDiscovery.task ∉ expiringTasks ∧
      misnamedLoaded.db.schedules.lookup? (walkKey "10.0.0.1:161") ≠ some misnamedDiscovery ∧
      misnamedLoaded.db.schedules.lookup? (redbeatKey "nightly") = some foreignWalk ∧
      foreignWalk.task ∈ expiringTasks ∧ foreignWalk.options.expires = some 30 := by
  refine ⟨?_, ?_, ?_, ?_, ?_, ?_⟩ <;> decide

end Sc4snmp
