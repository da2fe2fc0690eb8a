import Sc4snmp.Common.GroupExpansion
import Sc4snmp.Inventory.LineIsolation
import Sc4snmp.Inventory.WalkSchedules

/-!
# Hosts that leave their groups

A load deletes the hosts the previous groups had and the new ones have not.  Both
sides of the difference are keys, and both take the port of a host without one from
the *new* inventory, or the default one when the group has no line in it any more:
the records were created with the port of the old line.  And a host that leaves one
group is deleted even if another group, or a line of its own, still has it; a line may
store it again, but without its targets document and its polls.

Of RedBeat's `delete_schedules_by_target` it is assumed here that it deletes the
entries of the target whole, no others, and leaves nothing in their place that cannot
be read.  An entry under the name of the walk of another target counts as that one's.

## Main definitions

* `Removed`, `Kept` — nothing of a record is left, or nothing of it is missing.
* `Describes` — a groups collection and an inventory have a host.
* `GroupRemoval` — what a load owes the records of the previous groups, and those it describes.
* `LeavesGroup` — a key is among the ones `return_hosts_from_deleted_groups` returns.
* `Selected`, `Erased`, `Restored` — what a load deletes of a record, and stores again.
* `RightlySelected` — what is selected is what is no longer described.

## Main results

* `lineStep_cases` — what one line does to a record.
* `lines_document`, `lines_targets`, `lines_kept`, `lines_added` — what the lines leave of it.
* `loadEffect` — what a load leaves of it.
* `LoadEffect.removed_iff`, `LoadEffect.kept_iff` — when a record is removed, or kept.
* `groupRemoval_iff` — **hosts are removed as they should exactly when they are rightly
  selected**.
-/

namespace Sc4snmp

open InventoryRecordManager

/-- What `delete_schedules_by_target` is relied on for. -/
def DeletesTarget (deleteSchedules : DeleteSchedulesByTarget) : Prop :=
  ∀ s target k, (deleteSchedules s target).lookup? k =
    (s.lookup? k).filter fun e => e.target ≠ some target

/-- It leaves nothing that `from_key` cannot read in place of an entry. -/
def DeletesCleanly (deleteSchedules : DeleteSchedulesByTarget) : Prop :=
  ∀ s target k, s.fromKey k ≠ .error .valueError →
    (deleteSchedules s target).fromKey k ≠ .error .valueError

/-- Reading the key raises `ValueError`. -/
def Unreadable (s : ScheduleStore) (k : String) : Prop := s.fromKey k = .error .valueError

/-- Reading the key returns an entry. -/
def HasEntry (s : ScheduleStore) (k : String) : Prop := ∃ e, s.fromKey k = .ok e

/-! ### Records -/

/-- The key of an address and a port. -/
def recordKey (r : String × ℤ) : String := r.1 ++ ":" ++ toString r.2

theorem recordKey_injective : Function.Injective recordKey := by
  intro r r' h
  obtain ⟨haddress, hport⟩ := (key_inj (colon_notMem_toString _) (colon_notMem_toString _)).mp h
  exact Prod.ext haddress (Text.toString_int_injective hport)

/-- A key that is read back at all is read back as its record. -/
theorem transformKeyToAddress_recordKey {r r' : String × ℤ}
    (h : transformKeyToAddress (recordKey r) = .ok r') : r' = r := by
  have hsplit : Text.rsplitOnce ':' (recordKey r) = some (r.1, toString r.2) := by
    refine Text.rsplitOnce_append (colon_notMem_toString _) ?_
    rw [recordKey, String.toList_append, String.toList_append, List.append_assoc]
    rfl
  rw [transformKeyToAddress, hsplit] at h
  obtain ⟨port, hport, h⟩ := PyError.bind_eq_ok.mp h
  cases h
  rw [PyVal.toInt] at hport
  split at hport
  · next i hi =>
    cases hport
    exact Prod.ext rfl (Text.parseInt_toString hi)
  · cases hport

/-- The document of a record in the inventory collection. -/
def InventoryDb.document (db : InventoryDb) (r : String × ℤ) : Option InventoryRecord :=
  db.inventory.get? (some r.1, r.2)

/-- A key no other target's walk stands under. -/
def OwnKey (r : String × ℤ) (k : String) : Prop :=
  ∀ target, k = walkKey target → target = recordKey r

theorem ownKey_walkKey (r : String × ℤ) : OwnKey r (walkKey (recordKey r)) := fun _ h =>
  (walkKey_injective h).symm

/-- An entry of the schedules is one of the record. -/
def ScheduleOf (db : InventoryDb) (r : String × ℤ) (k : String) (e : RedBeatSchedulerEntry) :
    Prop :=
  db.schedules.lookup? k = some e ∧ e.target = some (recordKey r) ∧ OwnKey r k

/-- Nothing of the record is left, under whatever key. -/
structure Gone (db : InventoryDb) (r : String × ℤ) : Prop where
  document : db.document r = none
  targets : recordKey r ∉ db.targets
  schedules : ∀ k e, db.schedules.lookup? k = some e → e.target ≠ some (recordKey r)

/-- Nothing of the record is left. -/
structure Removed (db : InventoryDb) (r : String × ℤ) : Prop where
  document : db.document r = none
  targets : recordKey r ∉ db.targets
  schedules : ∀ k e, ¬ ScheduleOf db r k e

/-- The schedules of a record are still there. -/
def SchedulesKept (db db' : InventoryDb) (r : String × ℤ) : Prop :=
  ∀ k e, ScheduleOf db r k e → ∃ e', ScheduleOf db' r k e'

theorem SchedulesKept.refl (db : InventoryDb) (r : String × ℤ) : SchedulesKept db db r :=
  fun _ e h => ⟨e, h⟩

/-- What there was of the record is there. -/
structure Kept (db db' : InventoryDb) (r : String × ℤ) : Prop where
  document : (db.document r).isSome → (db'.document r).isSome
  targets : recordKey r ∈ db.targets → recordKey r ∈ db'.targets
  schedules : SchedulesKept db db' r

/-- What lines other than ones that delete the record leave of it; `writes` says that
one of them stores it. -/
structure Frame (db db' : InventoryDb) (r : String × ℤ) (writes : Prop) : Prop where
  document : (db'.document r).isSome ↔ writes ∨ (db.document r).isSome
  targets : recordKey r ∈ db'.targets ↔ recordKey r ∈ db.targets
  kept : SchedulesKept db db' r
  added : ∀ k e', db'.schedules.lookup? k = some e' → e'.target = some (recordKey r) →
    (writes ∧ k = walkKey (recordKey r)) ∨
      ∃ e, db.schedules.lookup? k = some e ∧ e.target = some (recordKey r)

namespace Frame

variable {db db' db'' : InventoryDb} {r : String × ℤ} {p q : Prop}

protected theorem refl (db : InventoryDb) (r : String × ℤ) : Frame db db r False :=
  ⟨by simp, Iff.rfl, .refl db r, fun _ e he htarget => Or.inr ⟨e, he, htarget⟩⟩

theorem of_iff (h : Frame db db' r p) (hpq : p ↔ q) : Frame db db' r q := propext hpq ▸ h

end Frame

/-! ### One delete -/

section Deleting

variable {deleteSchedules : DeleteSchedulesByTarget}

/-- Deleting the key of a record leaves nothing of it. -/
theorem gone_delete (hdel : DeletesTarget deleteSchedules) {db db' : InventoryDb} {r : String × ℤ}
    (h : delete deleteSchedules db (recordKey r) = (db', .ok ())) : Gone db' r := by
  rw [InventoryRecordManager.delete] at h
  cases hread : transformKeyToAddress (recordKey r) with
  | error err => rw [hread] at h; cases h
  | ok r' =>
    obtain rfl := transformKeyToAddress_recordKey hread
    rw [hread] at h
    cases h
    refine ⟨by simp [InventoryDb.document], by simp, fun k e he => ?_⟩
    rw [hdel, Option.filter_eq_some_iff] at he
    simpa using he.2

/-- Deleting another key leaves a record but for its document, if the key is read as
the record. -/
theorem delete_of_ne (hdel : DeletesTarget deleteSchedules) {db db' : InventoryDb}
    {r : String × ℤ} {target : String} (hne : target ≠ recordKey r)
    (h : delete deleteSchedules db target = (db', .ok ())) :
    (recordKey r ∈ db'.targets ↔ recordKey r ∈ db.targets) ∧
    (∀ k e, e.target = some (recordKey r) →
      (db'.schedules.lookup? k = some e ↔ db.schedules.lookup? k = some e)) ∧
    db'.document r = if transformKeyToAddress target = .ok r then none else db.document r := by
  rw [InventoryRecordManager.delete] at h
  cases hread : transformKeyToAddress target with
  | error err => rw [hread] at h; cases h
  | ok r' =>
    rw [hread] at h
    cases h
    refine ⟨by simp [hne.symm], ?_, ?_⟩
    · intro k e htarget
      rw [hdel, Option.filter_eq_some_iff, htarget]
      simp [hne.symm]
    · simp only [InventoryDb.document, Dict.get?_erase, Prod.mk.injEq, Option.some.injEq,
        Except.ok.injEq, ← Prod.ext_iff, eq_comm]

theorem frame_delete_of_ne (hdel : DeletesTarget deleteSchedules) {db db' : InventoryDb}
    {r : String × ℤ} {target : String} (hne : target ≠ recordKey r)
    (hread : transformKeyToAddress target ≠ .ok r)
    (h : delete deleteSchedules db target = (db', .ok ())) : Frame db db' r False := by
  obtain ⟨htargets, hschedules, hdocument⟩ := delete_of_ne hdel hne h
  rw [if_neg hread] at hdocument
  refine ⟨by rw [hdocument]; simp, htargets, fun k e he => ⟨e, ?_, he.2⟩,
    fun k e he htarget => Or.inr ⟨e, ?_, htarget⟩⟩
  · exact (hschedules k e he.2.1).mpr he.1
  · exact (hschedules k e htarget).mp he

end Deleting

/-! ### One update -/

/-- The settings of a walk leave the key of a record alone. -/
theorem walkSettings_record {config : LoadConfig} {ir record : InventoryRecord}
    {source : SourceRecord} {walkProfile : Option String}
    (h : walkSettings config ir source = .ok (walkProfile, record)) :
    record.docKey = ir.docKey ∧ record.target = ir.target := by
  rw [walkSettings] at h
  obtain ⟨profiles, -, h⟩ := PyError.bind_eq_ok.mp h
  obtain ⟨names, rfl⟩ : ∃ names, profiles = .str names := by
    cases profiles with
    | str names => exact ⟨names, rfl⟩
    | none => cases h
    | bool b => cases h
    | int i => cases h
  obtain ⟨_, -, h⟩ := PyError.bind_eq_ok.mp h
  dsimp only at h
  split at h
  · obtain ⟨interval, -, h⟩ := PyError.bind_eq_ok.mp h
    obtain ⟨walkInterval, -, h⟩ := PyError.bind_eq_ok.mp h
    cases h
    exact ⟨rfl, rfl⟩
  · cases h
    exact ⟨rfl, rfl⟩

/-- What an update that gets past the settings of the walk does to the database. -/
theorem update_effect {config : LoadConfig} (expiryTimeChanged : Bool) (db : InventoryDb)
    {ir record : InventoryRecord} {source : SourceRecord} {walkProfile : Option String}
    (hset : walkSettings config ir source = .ok (walkProfile, record)) :
    let db' := (update config expiryTimeChanged db ir source).1
    db'.inventory = db.inventory.insert record.docKey record ∧ db'.targets = db.targets ∧
      (db'.schedules = db.schedules ∨ db.schedules.manageTask (genWalkTask
        config.chainOfTasksExpiryTime record walkProfile (source.get "group")) =
          .ok db'.schedules) := by
  have hschedule : ∀ (written : InventoryDb) (task : TaskData),
      let db' := (scheduleWalk written task).1
      db'.inventory = written.inventory ∧ db'.targets = written.targets ∧
        (db'.schedules = written.schedules ∨
          written.schedules.manageTask task = .ok db'.schedules) := by
    intro written task
    simp only [scheduleWalk]
    cases hrun : written.schedules.manageTask task with
    | ok schedules => exact ⟨rfl, rfl, Or.inr rfl⟩
    | error err => exact ⟨rfl, rfl, Or.inl rfl⟩
  simp only [update, hset]
  split
  · exact hschedule _ _
  · split
    · exact hschedule _ _
    · split
      · exact ⟨rfl, rfl, Or.inl rfl⟩
      · exact ⟨rfl, rfl, Or.inl rfl⟩
      · exact hschedule _ _

/-- Scheduling the walk of a target keeps the schedules of a record and adds none to
them but under that target. -/
theorem manageTask_walk {s s' : ScheduleStore} {x : ℤ} {record : InventoryRecord}
    {walkProfile : Option String} {group : PyVal}
    (h : s.manageTask (genWalkTask x record walkProfile group) = .ok s') (k : String) :
    s'.lookup? k = s.lookup? k ∨
      k = walkKey record.target ∧ ∃ e, s'.lookup? k = some e ∧ e.target = some record.target := by
  have hentry : s'.lookup? k = if k = walkKey record.target then
      some (ScheduleStore.managedEntry (s.lookup? k) (genWalkTask x record walkProfile group))
      else s.lookup? k := ScheduleStore.lookup?_manageTask rfl rfl h k
  by_cases hk : k = walkKey record.target
  · rw [if_pos hk] at hentry
    refine Or.inr ⟨hk, _, hentry, ?_⟩
    cases s.lookup? k <;> rfl
  · rw [if_neg hk] at hentry
    exact Or.inl hentry

/-- An update leaves every record as it is, except that it stores its own. -/
theorem frame_update (config : LoadConfig) (expiryTimeChanged : Bool) (db : InventoryDb)
    {ir : InventoryRecord} (source : SourceRecord) {r : String × ℤ}
    (hkey : ir.target = recordKey r ↔ ir.docKey = (some r.1, r.2)) :
    Frame db (update config expiryTimeChanged db ir source).1 r
      ((∃ settings, walkSettings config ir source = .ok settings) ∧
        ir.docKey = (some r.1, r.2)) := by
  cases hset : walkSettings config ir source with
  | error err =>
    rw [update, hset]
    exact (Frame.refl db r).of_iff (by simp)
  | ok settings =>
    obtain ⟨walkProfile, record⟩ := settings
    obtain ⟨hinventory, htargets, hschedules⟩ :=
      update_effect expiryTimeChanged db hset
    obtain ⟨hdoc, htarget⟩ := walkSettings_record hset
    rw [← hdoc, ← htarget] at hkey
    have hentry : ∀ k, (update config expiryTimeChanged db ir source).1.schedules.lookup? k =
        db.schedules.lookup? k ∨ k = walkKey record.target ∧ ∃ e,
          (update config expiryTimeChanged db ir source).1.schedules.lookup? k = some e ∧
            e.target = some record.target := by
      intro k
      rcases hschedules with hsame | hrun
      · exact Or.inl (by rw [hsame])
      · exact manageTask_walk hrun k
    refine Frame.of_iff ⟨?_, by rw [htargets], ?_, ?_⟩
      (q := _ ∧ ir.docKey = (some r.1, r.2)) (p := record.docKey = (some r.1, r.2)) (by simp [hdoc])
    · rw [InventoryDb.document, hinventory, Dict.get?_insert]
      by_cases hr : record.docKey = (some r.1, r.2)
      · rw [if_pos hr.symm]
        exact iff_of_true rfl (Or.inl hr)
      · rw [if_neg (Ne.symm hr)]
        exact (or_iff_right hr).symm
    · -- an entry of the record is left, or is the walk the update manages
      rintro k e ⟨he, he', hown⟩
      rcases hentry k with hsame | ⟨rfl, e', hnew, htarget'⟩
      · exact ⟨e, hsame.trans he, he', hown⟩
      · exact ⟨e', hnew, by rw [htarget', hown _ rfl], hown⟩
    · intro k e he he'
      rcases hentry k with hsame | ⟨rfl, e', hnew, htarget'⟩
      · exact Or.inr ⟨e, hsame.symm.trans he, he'⟩
      · rw [hnew, Option.some.injEq] at he
        subst he
        rw [htarget', Option.some.injEq] at he'
        exact Or.inl ⟨hkey.mp he', by rw [he']⟩

/-- An update that returns leaves a readable walk. -/
theorem hasEntry_of_update {config : LoadConfig} {expiryTimeChanged : Bool} {db : InventoryDb}
    {ir : InventoryRecord} {source : SourceRecord}
    (h : (update config expiryTimeChanged db ir source).2 = .ok ()) :
    HasEntry (update config expiryTimeChanged db ir source).1.schedules (walkKey ir.target) := by
  cases hset : walkSettings config ir source with
  | error err =>
    rw [update, hset] at h
    cases h
  | ok settings =>
    obtain ⟨walkProfile, record⟩ := settings
    -- the three ways to `manage_task`: a new or modified record, a changed expiry, no walk
    have hschedule : ∀ written : InventoryDb,
        let task := genWalkTask config.chainOfTasksExpiryTime record walkProfile
          (source.get "group")
        (scheduleWalk written task).2 = .ok () →
          HasEntry (scheduleWalk written task).1.schedules (walkKey record.target) := by
      intro written task hok
      unfold scheduleWalk at hok ⊢
      cases hrun : written.schedules.manageTask task with
      | error err =>
        rw [hrun] at hok
        cases hok
      | ok schedules =>
        exact ⟨_, (ScheduleStore.fromKey_manageTask rfl rfl hrun _).trans (if_pos rfl)⟩
    rw [← (walkSettings_record hset).2]
    simp only [update, hset] at h ⊢
    split
    · next hnew =>
      rw [if_pos hnew] at h
      exact hschedule _ h
    · next hold =>
      rw [if_neg hold] at h
      split
      · next hchanged =>
        rw [if_pos hchanged] at h
        exact hschedule _ h
      · next hsame =>
        rw [if_neg hsame] at h
        cases hwalk : db.schedules.walkTaskExists record.target with
        | error err =>
          rw [hwalk] at h
          cases h
        | ok walkExists =>
          rw [hwalk] at h
          cases walkExists with
          | true =>
            obtain ⟨e, he⟩ := ScheduleStore.walkTaskExists_eq_true hwalk
            exact ⟨e, ScheduleStore.fromKey_eq_ok_iff.mpr he⟩
          | false => exact hschedule _ h

/-- An update leaves what stands under other keys, and everything when it raises. -/
theorem fromKey_update (config : LoadConfig) (expiryTimeChanged : Bool) (db : InventoryDb)
    (ir : InventoryRecord) (source : SourceRecord) (k : String)
    (h : k ≠ walkKey ir.target ∨ Unreadable db.schedules k ∨
      ∀ settings, walkSettings config ir source ≠ .ok settings) :
    (update config expiryTimeChanged db ir source).1.schedules.fromKey k =
      db.schedules.fromKey k := by
  cases hset : walkSettings config ir source with
  | error err => rw [update, hset]
  | ok settings =>
    obtain ⟨walkProfile, record⟩ := settings
    obtain ⟨-, -, hschedules⟩ := update_effect expiryTimeChanged db hset
    rcases hschedules with hsame | hrun
    · rw [hsame]
    · have htarget := (walkSettings_record hset).2
      rw [ScheduleStore.fromKey_manageTask rfl rfl hrun, if_neg]
      rintro rfl
      rcases h with hne | hunreadable | hnone
      · exact hne (congrArg walkKey htarget)
      · obtain ⟨err, herr⟩ := (ScheduleStore.manageTask_error_iff (s := db.schedules)
          (d := genWalkTask config.chainOfTasksExpiryTime record walkProfile (source.get "group"))
            rfl).mpr hunreadable
        cases hrun.symm.trans herr
      · exact hnone _ hset

/-! ### One line -/

/-- The line says that its hosts are to be deleted. -/
def MarkedDeleted (source : SourceRecord) : Prop :=
  ∃ v, source.columns.get? "delete" = some v ∧ InventoryRecord.deleteValidator v = .ok true

/-- A record has the address and the port its line comes down to. -/
theorem record_of_line {lookup : AddressLookup} {source : SourceRecord} {ir : InventoryRecord}
    {address : String} (haddress : source.columns.get? "address" = some (.str address))
    (h : InventoryRecord.ofSource lookup source = .ok ir) :
    ir.address = some address ∧ resolvedKey source = some (address, ir.port) ∧
      (ir.delete = some true ↔ MarkedDeleted source) := by
  obtain ⟨hport, haddr, hdelete⟩ := InventoryRecord.ofSource_fields h
  rw [InventoryRecord.validated, InventoryRecord.get?_renameAlternatives (by decide)]
    at hport haddr hdelete
  refine ⟨?_, ?_, ?_⟩
  · simp only [haddress, InventoryRecord.addressValidator] at haddr
    split at haddr
    · cases haddr
    · split at haddr
      · exact (Except.ok.inj haddr).symm
      · cases haddr
  · suffices hresolved : resolvedPort (source.get "port") = some ir.port by
      rw [resolvedKey, haddress, hresolved]
      rfl
    rw [SourceRecord.get, Dict.getD]
    cases hcolumn : source.columns.get? "port" with
    | none =>
      rw [hcolumn, Except.ok.injEq] at hport
      rw [← hport]
      rfl
    | some v =>
      rw [hcolumn] at hport
      simp only [InventoryRecord.portValidator] at hport
      rw [Option.getD_some, resolvedPort]
      split at hport
      · next hblank =>
        simp [hblank, ← Except.ok.inj hport]
      · next hblank =>
        obtain ⟨value, hvalue, hrange⟩ := PyError.bind_eq_ok.mp hport
        split at hrange
        · cases hrange
        · next hin =>
          -- nothing but zero is falsy and an integer
          have htruthy : v.truthy = true := by
            rw [← Bool.not_eq_false]
            intro hfalse
            have hzero := PyVal.eq_zero_of_falsy hfalse hvalue
            omega
          simp [hblank, htruthy, hvalue, Except.toOption, Except.ok.inj hrange]
  · rw [MarkedDeleted]
    cases hcolumn : source.columns.get? "delete" with
    | none =>
      rw [hcolumn, Except.ok.injEq] at hdelete
      simp [← hdelete]
    | some v =>
      rw [hcolumn] at hdelete
      cases hv : InventoryRecord.deleteValidator v with
      | error err => simp [hv] at hdelete
      | ok b =>
        simp only [hv] at hdelete
        simp [← Except.ok.inj hdelete, hv]

/-- The record of the line is stored under the address and port, and is to be deleted. -/
def LineDeletes (env : LoaderEnv) (source : SourceRecord) (r : String × ℤ) : Prop :=
  ∃ ir, InventoryRecord.ofSource env.lookup source = .ok ir ∧ ir.delete = some true ∧
    ir.docKey = (some r.1, r.2)

/-- The line stores a record under the address and port. -/
def LineStores (env : LoaderEnv) (source : SourceRecord) (r : String × ℤ) : Prop :=
  ∃ ir, InventoryRecord.ofSource env.lookup source = .ok ir ∧ ir.delete ≠ some true ∧
    (∃ settings, walkSettings env.config ir source = .ok settings) ∧ ir.docKey = (some r.1, r.2)

/-- A line has an address. -/
def HasAddress (source : SourceRecord) : Prop :=
  ∃ address, source.columns.get? "address" = some (.str address)

/-- The target and the document of a record go by the address and the port of its line. -/
theorem target_of_line {lookup : AddressLookup} {source : SourceRecord} {ir : InventoryRecord}
    (haddress : HasAddress source) (h : InventoryRecord.ofSource lookup source = .ok ir) :
    ∃ address, ir.target = recordKey (address, ir.port) ∧
      ∀ r : String × ℤ, ir.docKey = (some r.1, r.2) ↔ r = (address, ir.port) := by
  obtain ⟨address, haddress⟩ := haddress
  obtain ⟨haddr, -, -⟩ := record_of_line haddress h
  have hrange := InventoryRecord.ofSource_port_range h
  refine ⟨address, ?_, ?_⟩
  · rw [InventoryRecord.target, if_neg (by omega), InventoryRecord.addressVal, haddr]
    rfl
  · intro r
    rw [InventoryRecord.docKey, haddr, Prod.mk.injEq, Option.some.injEq, Prod.ext_iff]
    exact and_congr eq_comm eq_comm

/-- What a line does to a record: it deletes it, or stores it, or leaves it alone. -/
theorem lineStep_cases {env : LoaderEnv} (hdel : DeletesTarget env.deleteSchedules)
    (st : LoaderState) {source : SourceRecord} (haddress : HasAddress source) (r : String × ℤ) :
    LineDeletes env source r ∧ Gone (lineStep env st source).db r ∨
      ¬ LineDeletes env source r ∧
        Frame st.db (lineStep env st source).db r (LineStores env source r) := by
  rw [lineStep_db, processRecord]
  cases hrecord : InventoryRecord.ofSource env.lookup source with
  | error err =>
    refine Or.inr ⟨by simp [LineDeletes, hrecord], (Frame.refl st.db r).of_iff ?_⟩
    simp [LineStores, hrecord]
  | ok ir =>
    have hrange := InventoryRecord.ofSource_port_range hrecord
    obtain ⟨address, htarget, hdocKey⟩ := target_of_line haddress hrecord
    have hdoc := hdocKey r
    have hkey : ir.target = recordKey r ↔ ir.docKey = (some r.1, r.2) := by
      rw [htarget, recordKey_injective.eq_iff, hdoc, eq_comm]
    by_cases hdelete : ir.delete = some true
    · simp only [if_pos hdelete]
      have hreturns := delete_target_returns env.deleteSchedules st.db hrange
      have hdeletes : LineDeletes env source r ↔ r = (address, ir.port) := by
        simp [LineDeletes, hrecord, hdelete, hdoc]
      have hstores : ¬ LineStores env source r := by simp [LineStores, hrecord, hdelete]
      cases hrun : delete env.deleteSchedules st.db ir.target with
      | mk db result =>
        rw [hrun] at hreturns
        obtain rfl : result = .ok () := hreturns
        -- the line deletes the record, or another one
        by_cases hr : r = (address, ir.port)
        · rw [htarget, ← hr] at hrun
          exact Or.inl ⟨hdeletes.mpr hr, gone_delete hdel hrun⟩
        · refine Or.inr ⟨hdeletes.not.mpr hr, (frame_delete_of_ne hdel ?_ ?_ hrun).of_iff ?_⟩
          · rwa [ne_eq, hkey, hdoc]
          · intro hread
            rw [htarget] at hread
            exact hr (transformKeyToAddress_recordKey hread)
          · simp [hstores]
    · simp only [if_neg hdelete]
      refine Or.inr ⟨by simp [LineDeletes, hrecord, hdelete], ?_⟩
      refine (frame_update env.config env.expiryTimeChanged st.db source hkey).of_iff ?_
      simp [LineStores, hrecord, hdelete]

/-! ### The loops -/

/-- Some line stores the record, and no later one deletes it. -/
def RestoredIn (env : LoaderEnv) (lines : List SourceRecord) (r : String × ℤ) : Prop :=
  ∃ before source after, lines = before ++ source :: after ∧ LineStores env source r ∧
    ∀ other ∈ after, ¬ LineDeletes env other r

section Loops

variable {env : LoaderEnv} {r : String × ℤ}

theorem restoredIn_cons_iff {source : SourceRecord} {lines : List SourceRecord} :
    RestoredIn env (source :: lines) r ↔ RestoredIn env lines r ∨
      LineStores env source r ∧ ∀ other ∈ lines, ¬ LineDeletes env other r := by
  constructor
  · rintro ⟨before, stored, after, hsplit, hstores, hafter⟩
    cases before with
    | nil =>
      cases hsplit
      exact Or.inr ⟨hstores, hafter⟩
    | cons first before =>
      cases hsplit
      exact Or.inl ⟨before, stored, after, rfl, hstores, hafter⟩
  · rintro (⟨before, stored, after, rfl, hstores, hafter⟩ | ⟨hstores, hafter⟩)
    · exact ⟨source :: before, stored, after, rfl, hstores, hafter⟩
    · exact ⟨[], source, lines, rfl, hstores, hafter⟩

/-- The document that lines leave: one of them stores it, or none of them deletes it. -/
theorem lines_document (hdel : DeletesTarget env.deleteSchedules) (st : LoaderState)
    {lines : List SourceRecord} (haddress : ∀ source ∈ lines, HasAddress source) :
    ((Run.final (lineStep env) st lines).db.document r).isSome ↔
      RestoredIn env lines r ∨
        (st.db.document r).isSome ∧ ∀ source ∈ lines, ¬ LineDeletes env source r := by
  induction lines generalizing st with
  | nil => simp [RestoredIn]
  | cons source lines ih =>
    rw [List.forall_mem_cons] at haddress
    rw [Run.final_cons, ih (lineStep env st source) haddress.2, restoredIn_cons_iff,
      List.forall_mem_cons, or_assoc]
    refine or_congr_right ?_
    rcases lineStep_cases hdel st haddress.1 r with ⟨hdeletes, hgone⟩ | ⟨hkeep, hframe⟩
    · have hstores : ¬ LineStores env source r := by
        rintro ⟨ir, hrecord, hdelete, -⟩
        obtain ⟨ir', hrecord', hdelete', -⟩ := hdeletes
        cases hrecord.symm.trans hrecord'
        exact hdelete hdelete'
      simp [hgone.document, hdeletes, hstores]
    · rw [hframe.document]
      simp only [hkeep, not_false_eq_true, true_and]
      tauto

/-- Of the documents of the target, lines delete those of the records they delete. -/
theorem lines_targets (hdel : DeletesTarget env.deleteSchedules) (st : LoaderState)
    {lines : List SourceRecord} (haddress : ∀ source ∈ lines, HasAddress source) :
    recordKey r ∈ (Run.final (lineStep env) st lines).db.targets ↔
      recordKey r ∈ st.db.targets ∧ ∀ source ∈ lines, ¬ LineDeletes env source r := by
  induction lines generalizing st with
  | nil => simp
  | cons source lines ih =>
    rw [List.forall_mem_cons] at haddress
    rw [List.forall_mem_cons]
    have hrest := ih (lineStep env st source) haddress.2
    rw [Run.final_cons, hrest]
    rcases lineStep_cases hdel st haddress.1 r with ⟨hdeletes, hgone⟩ | ⟨hkeep, hframe⟩
    · simp [hgone.targets, hdeletes]
    · simp [hframe.targets, hkeep]

/-- Lines none of which deletes the record keep its schedules. -/
theorem lines_kept (hdel : DeletesTarget env.deleteSchedules) (st : LoaderState)
    {lines : List SourceRecord} (haddress : ∀ source ∈ lines, HasAddress source)
    (hkeep : ∀ source ∈ lines, ¬ LineDeletes env source r) :
    SchedulesKept st.db (Run.final (lineStep env) st lines).db r := by
  induction lines generalizing st with
  | nil => exact SchedulesKept.refl st.db r
  | cons source lines ih =>
    rw [List.forall_mem_cons] at haddress hkeep
    have hframe := ((lineStep_cases hdel st haddress.1 r).resolve_left fun h => hkeep.1 h.1).2
    intro k e he
    obtain ⟨e', he'⟩ := hframe.kept k e he
    exact ih (lineStep env st source) haddress.2 hkeep.2 k e' he'

/-- A schedule that lines leave to a record is its walk, which one of them has stored, or was
there before, and none of them deletes it. -/
theorem lines_added (hdel : DeletesTarget env.deleteSchedules) (st : LoaderState)
    {lines : List SourceRecord} (haddress : ∀ source ∈ lines, HasAddress source) {k : String}
    {e : RedBeatSchedulerEntry}
    (he : (Run.final (lineStep env) st lines).db.schedules.lookup? k = some e)
    (htarget : e.target = some (recordKey r)) :
    (RestoredIn env lines r ∧ k = walkKey (recordKey r)) ∨
      (∀ source ∈ lines, ¬ LineDeletes env source r) ∧
        ∃ e', st.db.schedules.lookup? k = some e' ∧ e'.target = some (recordKey r) := by
  induction lines generalizing st with
  | nil => exact Or.inr ⟨List.forall_mem_nil _, e, he, htarget⟩
  | cons source lines ih =>
    rw [List.forall_mem_cons] at haddress
    rw [restoredIn_cons_iff, List.forall_mem_cons]
    rcases ih (lineStep env st source) haddress.2 he with hrestored | ⟨hkeeps, e', he', htarget'⟩
    · exact Or.inl ⟨Or.inl hrestored.1, hrestored.2⟩
    rcases lineStep_cases hdel st haddress.1 r with ⟨-, hgone⟩ | ⟨hkeep, hframe⟩
    · exact absurd htarget' (hgone.schedules k e' he')
    · rcases hframe.added k e' he' htarget' with ⟨hstores, hk⟩ | hold
      · exact Or.inl ⟨Or.inr ⟨hstores, hkeeps⟩, hk⟩
      · exact Or.inr ⟨⟨hkeep, hkeeps⟩, hold⟩

/-- The loop over the hosts that left their groups: a record whose key is among them is
gone, and of any other record only the document is lost, if one of them is read as it. -/
theorem deleteHosts_spec (hdel : DeletesTarget env.deleteSchedules) {hosts : List String}
    {st st' : LoaderState} (h : deleteHosts env hosts st = .ok st') (r : String × ℤ) :
    (recordKey r ∈ hosts ∨ Gone st.db r → Gone st'.db r) ∧
    (recordKey r ∉ hosts → (recordKey r ∈ st'.db.targets ↔ recordKey r ∈ st.db.targets) ∧
      (∀ k e, e.target = some (recordKey r) →
        (st'.db.schedules.lookup? k = some e ↔ st.db.schedules.lookup? k = some e)) ∧
      st'.db.document r =
        if ∃ host ∈ hosts, transformKeyToAddress host = .ok r then none else st.db.document r) := by
  induction hosts generalizing st with
  | nil =>
    cases h
    simp
  | cons host hosts ih =>
    rw [deleteHosts] at h
    split at h
    · next db hrun =>
      obtain ⟨hgone, hkept⟩ := ih h
      by_cases hhost : host = recordKey r
      · subst hhost
        exact ⟨fun _ => hgone (Or.inr (gone_delete hdel hrun)),
          fun hnot => absurd (List.mem_cons_self) hnot⟩
      · obtain ⟨htargets, hschedules, hdocument⟩ := delete_of_ne hdel hhost hrun
        refine ⟨?_, ?_⟩
        · -- gone already, or gone with one of the hosts to come
          rintro (hmem | hgone')
          · exact hgone (Or.inl ((List.mem_cons.mp hmem).resolve_left (Ne.symm hhost)))
          · refine hgone (Or.inr ⟨?_, htargets.not.mpr hgone'.targets, fun k e he htarget => ?_⟩)
            · rw [hdocument, hgone'.document, ite_self]
            · exact hgone'.schedules k e ((hschedules k e htarget).mp he) htarget
        · intro hnot
          obtain ⟨htargets', hschedules', hdocument'⟩ := hkept (List.not_mem_of_not_mem_cons hnot)
          refine ⟨htargets'.trans htargets, fun k e htarget =>
            (hschedules' k e htarget).trans (hschedules k e htarget), ?_⟩
          rw [hdocument', hdocument]
          by_cases hread : transformKeyToAddress host = .ok r <;>
            by_cases hrest : ∃ host ∈ hosts, transformKeyToAddress host = .ok r <;>
            simp_all
    · cases h

end Loops

/-! ### The walk of a record -/

/-- Under the name of the walk of a record there is nothing but its walk, and a record with a
document has one. -/
structure WalkSound (db : InventoryDb) (r : String × ℤ) : Prop where
  readable : ¬ Unreadable db.schedules (walkKey (recordKey r))
  target : ∀ e, db.schedules.lookup? (walkKey (recordKey r)) = some e →
    e.target = some (recordKey r)
  there : (db.document r).isSome → HasEntry db.schedules (walkKey (recordKey r))

namespace WalkSound

variable {db db' : InventoryDb} {r : String × ℤ}

theorem of_walk {e : RedBeatSchedulerEntry} (h : ScheduleOf db r (walkKey (recordKey r)) e) :
    WalkSound db r := by
  have hread := ScheduleStore.fromKey_eq_ok_iff.mpr h.1
  refine ⟨?_, ?_, fun _ => ⟨e, hread⟩⟩
  · intro hunreadable
    cases hread.symm.trans hunreadable
  · intro e' he'
    cases h.1.symm.trans he'
    exact h.2.1

/-- The record with its document has its walk. -/
theorem scheduleOf (h : WalkSound db r) (hdocument : (db.document r).isSome) :
    ∃ e, ScheduleOf db r (walkKey (recordKey r)) e := by
  obtain ⟨e, he⟩ := h.there hdocument
  have hlookup := ScheduleStore.fromKey_eq_ok_iff.mp he
  exact ⟨e, hlookup, h.target e hlookup, ownKey_walkKey r⟩

protected theorem delete {deleteSchedules : DeleteSchedulesByTarget}
    (hdel : DeletesTarget deleteSchedules) (hclean : DeletesCleanly deleteSchedules)
    {target : String} (h : WalkSound db r)
    (hrun : delete deleteSchedules db target = (db', .ok ())) : WalkSound db' r := by
  have hschedules : db'.schedules = deleteSchedules db.schedules target := by
    rw [InventoryRecordManager.delete] at hrun
    split at hrun
    · cases hrun
    · cases hrun
      rfl
  refine ⟨?_, ?_, ?_⟩
  · rw [Unreadable, hschedules]
    exact hclean _ _ _ h.readable
  · intro e he
    rw [hschedules, hdel, Option.filter_eq_some_iff] at he
    exact h.target e he.1
  · intro hdocument
    by_cases htarget : target = recordKey r
    · subst htarget
      rw [(gone_delete hdel hrun).document] at hdocument
      cases hdocument
    · obtain ⟨-, hlookup, hdoc⟩ := delete_of_ne hdel htarget hrun
      have hbefore : (db.document r).isSome := by
        rw [hdoc] at hdocument
        split at hdocument
        · cases hdocument
        · exact hdocument
      obtain ⟨e, he⟩ := h.there hbefore
      have he := ScheduleStore.fromKey_eq_ok_iff.mp he
      exact ⟨e, ScheduleStore.fromKey_eq_ok_iff.mpr ((hlookup _ e (h.target e he)).mpr he)⟩

/-- An update that stores the record sets up its walk, and any other leaves it. -/
protected theorem update (config : LoadConfig) (expiryTimeChanged : Bool) {ir : InventoryRecord}
    (source : SourceRecord) (h : WalkSound db r)
    (hkey : ir.target = recordKey r ↔ ir.docKey = (some r.1, r.2)) :
    WalkSound (update config expiryTimeChanged db ir source).1 r := by
  by_cases hwrites : (∃ settings, walkSettings config ir source = .ok settings) ∧
      ir.docKey = (some r.1, r.2)
  · obtain ⟨⟨⟨walkProfile, record⟩, hset⟩, hdoc⟩ := hwrites
    have htarget : record.target = recordKey r :=
      (walkSettings_record hset).2.trans (hkey.mpr hdoc)
    -- nothing but a walk that is not JSON stops it now
    have hreturns : (update config expiryTimeChanged db ir source).2 = .ok () := by
      cases hresult : (update config expiryTimeChanged db ir source).2 with
      | ok u => rfl
      | error err =>
        rcases update_error_iff.mp ⟨err, hresult⟩ with hnone | ⟨_, record', hset', hwalk⟩
        · exact absurd hset (hnone _)
        · rw [(walkSettings_record hset').2, hkey.mpr hdoc] at hwalk
          exact absurd hwalk h.readable
    have hentry := hasEntry_of_update hreturns
    rw [hkey.mpr hdoc] at hentry
    refine ⟨?_, ?_, fun _ => hentry⟩
    · obtain ⟨e, he⟩ := hentry
      intro hunreadable
      cases he.symm.trans hunreadable
    · intro e he
      obtain ⟨-, -, hschedules⟩ := update_effect expiryTimeChanged db hset
      rcases hschedules with hsame | hrun
      · rw [hsame] at he
        exact h.target e he
      · rcases manageTask_walk hrun (walkKey (recordKey r)) with hold | ⟨-, e', hnew, htarget'⟩
        · exact h.target e (hold.symm.trans he)
        · cases hnew.symm.trans he
          rw [htarget', htarget]
  · have hfrom : (update config expiryTimeChanged db ir source).1.schedules.fromKey
        (walkKey (recordKey r)) = db.schedules.fromKey (walkKey (recordKey r)) := by
      refine fromKey_update config expiryTimeChanged db ir source _ ?_
      rw [not_and_or] at hwrites
      rcases hwrites with hnone | hdoc
      · exact Or.inr (Or.inr fun settings hset => hnone ⟨settings, hset⟩)
      · exact Or.inl fun heq => hdoc (hkey.mp (walkKey_injective heq).symm)
    refine ⟨?_, ?_, ?_⟩
    · rw [Unreadable, hfrom]
      exact h.readable
    · intro e he
      rw [ScheduleStore.lookup?, hfrom] at he
      exact h.target e he
    · intro hdocument
      rw [HasEntry, hfrom]
      rw [(frame_update config expiryTimeChanged db source hkey).document] at hdocument
      exact h.there (hdocument.resolve_left hwrites)

section Loads

variable {env : LoaderEnv}

protected theorem lineStep (hdel : DeletesTarget env.deleteSchedules)
    (hclean : DeletesCleanly env.deleteSchedules) {st : LoaderState} {source : SourceRecord}
    (haddress : HasAddress source) (h : WalkSound st.db r) :
    WalkSound (lineStep env st source).db r := by
  rw [lineStep_db, processRecord]
  cases hrecord : InventoryRecord.ofSource env.lookup source with
  | error err => exact h
  | ok ir =>
    obtain ⟨address, htarget, hdoc⟩ := target_of_line haddress hrecord
    by_cases hdelete : ir.delete = some true
    · simp only [if_pos hdelete]
      cases hrun : delete env.deleteSchedules st.db ir.target with
      | mk db result =>
        have hreturns := delete_target_returns env.deleteSchedules st.db
          (InventoryRecord.ofSource_port_range hrecord)
        rw [hrun] at hreturns
        obtain rfl : result = .ok () := hreturns
        exact h.delete hdel hclean hrun
    · simp only [if_neg hdelete]
      refine h.update env.config env.expiryTimeChanged source ?_
      rw [htarget, recordKey_injective.eq_iff, hdoc, eq_comm]

protected theorem lines (hdel : DeletesTarget env.deleteSchedules)
    (hclean : DeletesCleanly env.deleteSchedules) {st : LoaderState} {lines : List SourceRecord}
    (haddress : ∀ source ∈ lines, HasAddress source) (h : WalkSound st.db r) :
    WalkSound (Run.final (Sc4snmp.lineStep env) st lines).db r :=
  Run.final_of_steps (I := fun st : LoaderState => WalkSound st.db r) h fun source hmem _ hst =>
    hst.lineStep hdel hclean (haddress source hmem)

protected theorem deleteHosts (hdel : DeletesTarget env.deleteSchedules)
    (hclean : DeletesCleanly env.deleteSchedules) {hosts : List String} {st st' : LoaderState}
    (h : WalkSound st.db r) (hrun : deleteHosts env hosts st = .ok st') : WalkSound st'.db r := by
  induction hosts generalizing st with
  | nil =>
    cases hrun
    exact h
  | cons host hosts ih =>
    rw [Sc4snmp.deleteHosts] at hrun
    split at hrun
    · next db hdeleted => exact ih (h.delete hdel hclean hdeleted) hrun
    · cases hrun

end Loads

end WalkSound

/-! ### Selection -/

/-- The key `get_groups_keys` has for a host of a group: by its own port, or by the port
of the group in the mapping. -/
def listedKey (mapping : Dict String PyVal) (groupName : String) (o : GroupObject) :
    Except PyError String :=
  transformAddressToKey (.str o.address)
    (match o.port with
      | some p => .int p
      | none => mapping.getD groupName (.int 161))

/-- Some previous group lists the key, and there is no new group of that name that does. -/
def LeavesGroup (previousGroups newGroups : Groups) (mapping : Dict String PyVal) (key : String) :
    Prop :=
  ∃ groupName hosts, previousGroups.get? groupName = some hosts ∧
    (∃ o ∈ hosts, listedKey mapping groupName o = .ok key) ∧
    ∀ newHosts, newGroups.get? groupName = some newHosts →
      ∀ o ∈ newHosts, listedKey mapping groupName o ≠ .ok key

theorem mem_getGroupsKeys_iff {hosts : List GroupObject} {groupName : String}
    {mapping : Dict String PyVal} {keys : List String}
    (h : getGroupsKeys hosts groupName mapping = .ok keys) (key : String) :
    key ∈ keys ↔ ∃ o ∈ hosts, listedKey mapping groupName o = .ok key :=
  (PyError.mapM_eq_ok h).2 key

/-- One group: its keys that the new group of that name has not. -/
theorem mem_deletedKeys_iff {newGroups : Groups} {mapping : Dict String PyVal}
    {groupName : String} {groupHosts : List GroupObject} {keys : List String}
    (h : (do
      let previousKeys ← getGroupsKeys groupHosts groupName mapping
      match newGroups.get? groupName with
      | none => return previousKeys
      | some newHosts =>
        let newKeys ← getGroupsKeys newHosts groupName mapping
        return previousKeys.dedup.filter (· ∉ newKeys) : Except PyError (List String)) = .ok keys)
    (key : String) :
    key ∈ keys ↔ (∃ o ∈ groupHosts, listedKey mapping groupName o = .ok key) ∧
      ∀ newHosts, newGroups.get? groupName = some newHosts →
        ∀ o ∈ newHosts, listedKey mapping groupName o ≠ .ok key := by
  obtain ⟨previousKeys, hprevious, hkeys⟩ := PyError.bind_eq_ok.mp h
  rw [← mem_getGroupsKeys_iff hprevious]
  cases hnew : newGroups.get? groupName with
  | none =>
    rw [hnew] at hkeys
    cases hkeys
    simp
  | some newHosts =>
    rw [hnew] at hkeys
    obtain ⟨newKeys, hnewKeys, hkeys⟩ := PyError.bind_eq_ok.mp hkeys
    cases hkeys
    simp [mem_getGroupsKeys_iff hnewKeys]

theorem mem_returnHostsFromDeletedGroups_iff {previousGroups newGroups : Groups}
    {mapping : Dict String PyVal} {hosts : List String}
    (h : returnHostsFromDeletedGroups previousGroups newGroups mapping = .ok hosts) (key : String) :
    key ∈ hosts ↔ LeavesGroup previousGroups newGroups mapping key := by
  rw [returnHostsFromDeletedGroups] at h
  obtain ⟨deleted, hdeleted, h⟩ := PyError.bind_eq_ok.mp h
  cases h
  obtain ⟨hall, hmem⟩ := PyError.mapM_eq_ok hdeleted
  rw [List.mem_flatten]
  constructor
  · rintro ⟨keys, hkeys, hkey⟩
    obtain ⟨⟨groupName, groupHosts⟩, hentry, hrun⟩ := (hmem keys).mp hkeys
    exact ⟨groupName, groupHosts, Dict.mem_entries_iff.mp hentry,
      (mem_deletedKeys_iff hrun key).mp hkey⟩
  · rintro ⟨groupName, groupHosts, hentry, hkey⟩
    have hentry := Dict.mem_entries_iff.mpr hentry
    obtain ⟨keys, hrun⟩ := hall _ hentry
    exact ⟨keys, (hmem keys).mpr ⟨_, hentry, hrun⟩,
      (mem_deletedKeys_iff hrun key).mpr hkey⟩

/-! ### Two loads -/

/-- The groups and the inventory have the address and port: a group host's line or a
single host's comes down to it, and does not say that it is to be deleted. -/
def Describes (groups : Groups) (lines : List SourceRecord) (r : String × ℤ) : Prop :=
  ∃ source ∈ lines.flatMap (expansions groups) ++ lines.filter (isSingleHost groups),
    resolvedKey source = some r ∧ ¬ MarkedDeleted source

/-- What the second load owes: the records that the first one has expanded from groups and
the second one's groups and inventory no longer describe are removed, and no record that
these describe is. -/
def GroupRemoval (previousGroups : Groups) (previousLines : List SourceRecord) (newGroups : Groups)
    (lines : List SourceRecord) (db db' : InventoryDb) : Prop :=
  (∀ r, GroupYields previousGroups previousLines r → ¬ Describes newGroups lines r →
    Removed db' r) ∧
  ∀ r, Describes newGroups lines r → Kept db db' r

section TwoLoads

variable (env : LoaderEnv) (previousGroups : Groups) (previousLines : List SourceRecord)
  (newGroups : Groups) (lines : List SourceRecord)

/-- Some key that leaves the groups is the record's, or a line deletes the record. -/
def Selected (r : String × ℤ) : Prop :=
  LeavesGroup previousGroups newGroups (portMapping newGroups lines Dict.empty) (recordKey r) ∨
    ∃ source, Placed newGroups lines source ∧ LineDeletes env source r

/-- The document goes, too, for a key that leaves the groups and spells the port differently. -/
def Erased (r : String × ℤ) : Prop :=
  Selected env previousGroups newGroups lines r ∨
    ∃ key, LeavesGroup previousGroups newGroups (portMapping newGroups lines Dict.empty) key ∧
      transformKeyToAddress key = .ok r

/-- Some line stores the record again, and no later one deletes it. -/
def Restored (r : String × ℤ) : Prop := RestoredIn env (placedLines newGroups lines) r

/-- What there is of a record that is no longer described is selected.  Of one that is
described only what the lines store again is: its document, and its walk. -/
def RightlySelected (db : InventoryDb) : Prop :=
  (∀ r, GroupYields previousGroups previousLines r → ¬ Describes newGroups lines r →
    ((db.document r).isSome → Erased env previousGroups newGroups lines r) ∧
    ((recordKey r ∈ db.targets ∨ ∃ k e, ScheduleOf db r k e) →
      Selected env previousGroups newGroups lines r)) ∧
  ∀ r, Describes newGroups lines r →
    ((db.document r).isSome → Erased env previousGroups newGroups lines r →
      Restored env newGroups lines r) ∧
    (Selected env previousGroups newGroups lines r → recordKey r ∉ db.targets ∧
      ∀ k e, ScheduleOf db r k e →
        k = walkKey (recordKey r) ∧ Restored env newGroups lines r)

/-- What a load leaves of a record. -/
structure LoadEffect (db db' : InventoryDb) (r : String × ℤ) : Prop where
  document : (db'.document r).isSome ↔ Restored env newGroups lines r ∨
    (db.document r).isSome ∧ ¬ Erased env previousGroups newGroups lines r
  targets : recordKey r ∈ db'.targets ↔
    recordKey r ∈ db.targets ∧ ¬ Selected env previousGroups newGroups lines r
  kept : ¬ Selected env previousGroups newGroups lines r → SchedulesKept db db' r
  left : ∀ k e, ScheduleOf db' r k e →
    (Restored env newGroups lines r ∧ k = walkKey (recordKey r)) ∨
      ¬ Selected env previousGroups newGroups lines r ∧ ∃ e', ScheduleOf db r k e'
  walk : Restored env newGroups lines r → ∀ e, ScheduleOf db r (walkKey (recordKey r)) e →
    ∃ e', ScheduleOf db' r (walkKey (recordKey r)) e'

variable {env previousGroups newGroups lines} {groups : Groups} {source : SourceRecord}
  {r : String × ℤ}

theorem mem_of_placed (h : Placed groups lines source) :
    source ∈ lines.flatMap (expansions groups) ++ lines.filter (isSingleHost groups) :=
  List.mem_append.mpr (h.imp id And.left)

theorem hasAddress_of_placed (h : Placed groups lines source) : HasAddress source := by
  rcases List.mem_append.mp (mem_of_placed h) with h | h
  · obtain ⟨line, -, hmem⟩ := List.mem_flatMap.mp h
    obtain ⟨groupName, o, -, -, rfl⟩ := mem_expansions_iff.mp hmem
    exact ⟨o.address, get?_hostGroupObject_address line groupName o⟩
  · have hsingle := (List.mem_filter.mp h).2
    rw [isSingleHost] at hsingle
    split at hsingle
    · next address haddress => exact ⟨address, haddress⟩
    · cases hsingle

/-- A line that stores a record describes it. -/
theorem describes_of_stores (hplaced : Placed groups lines source)
    (h : LineStores env source r) : Describes groups lines r := by
  obtain ⟨ir, hrecord, hdelete, -, hdoc⟩ := h
  obtain ⟨address, haddress⟩ := hasAddress_of_placed hplaced
  obtain ⟨haddr, hresolved, hmarked⟩ := record_of_line haddress hrecord
  refine ⟨source, mem_of_placed hplaced, ?_, hmarked.not.mp hdelete⟩
  rw [InventoryRecord.docKey, haddr, Prod.mk.injEq, Option.some.injEq] at hdoc
  rw [hresolved, hdoc.1, hdoc.2]

/-- A load comes down to a loop over hosts and one over lines. -/
theorem loadInventory_eq_ok {st st' : LoaderState} {errors : Bool}
    (h : loadInventory env previousGroups newGroups lines st = .ok (st', errors)) :
    ∃ hosts st₁, (∀ key, key ∈ hosts ↔ LeavesGroup previousGroups newGroups
        (portMapping newGroups lines Dict.empty) key) ∧
      deleteHosts env hosts st = .ok st₁ ∧
      st' = Run.final (lineStep env) st₁ (placedLines newGroups lines) ∧
      ∀ source, source ∈ placedLines newGroups lines ↔ Placed newGroups lines source := by
  rw [loadInventory] at h
  obtain ⟨⟨records, mapping⟩, hhosts, hrest⟩ := PyError.bind_eq_ok.mp h
  obtain ⟨hosts, hselected, hrest⟩ := PyError.bind_eq_ok.mp hrest
  obtain ⟨st₁, hdeleted, hrest⟩ := PyError.bind_eq_ok.mp hrest
  have hfinal : st' = Run.final (lineStep env) st₁ records := manageLines_eq_final hrest
  have hleaves := mem_returnHostsFromDeletedGroups_iff hselected
  have hplaced := mem_getAllHosts_iff hhosts
  obtain ⟨-, -, -, -, -, rfl⟩ := getAllHosts_eq_ok hhosts
  rw [getAllHosts_placed hhosts] at hfinal hplaced
  exact ⟨hosts, st₁, hleaves, hdeleted, hfinal, hplaced⟩

/-- **What a load leaves of a record.** -/
theorem loadEffect (hdel : DeletesTarget env.deleteSchedules)
    (hclean : DeletesCleanly env.deleteSchedules) {st st' : LoaderState} {errors : Bool}
    (h : loadInventory env previousGroups newGroups lines st = .ok (st', errors))
    (r : String × ℤ) : LoadEffect env previousGroups newGroups lines st.db st'.db r := by
  obtain ⟨hosts, st₁, hleaves, hdeleted, rfl, hplaced⟩ := loadInventory_eq_ok h
  have haddress : ∀ source ∈ placedLines newGroups lines, HasAddress source :=
    fun source hmem => hasAddress_of_placed ((hplaced source).mp hmem)
  obtain ⟨hgone, hkept⟩ := deleteHosts_spec hdel hdeleted r
  have hselected : Selected env previousGroups newGroups lines r ↔ recordKey r ∈ hosts ∨
      ∃ source ∈ placedLines newGroups lines, LineDeletes env source r := by
    simp only [Selected, hleaves, hplaced]
  have hnot : ¬ Selected env previousGroups newGroups lines r ↔ recordKey r ∉ hosts ∧
      ∀ source ∈ placedLines newGroups lines, ¬ LineDeletes env source r := by
    rw [hselected, not_or, not_exists]
    exact and_congr_right fun _ => forall_congr' fun _ => not_and
  have herased : ¬ Erased env previousGroups newGroups lines r ↔
      ¬ Selected env previousGroups newGroups lines r ∧
        ¬ ∃ key ∈ hosts, transformKeyToAddress key = .ok r := by
    simp only [Erased, hleaves, not_or]
  refine ⟨?_, ?_, ?_, ?_, ?_⟩
  · rw [lines_document hdel st₁ haddress, Restored, herased, hnot]
    refine or_congr_right ?_
    by_cases hhost : recordKey r ∈ hosts
    · simp [(hgone (Or.inl hhost)).document, hhost]
    · rw [(hkept hhost).2.2]
      by_cases hread : ∃ key ∈ hosts, transformKeyToAddress key = .ok r
      · simp [hread]
      · simp only [if_neg hread, and_iff_left hread, and_iff_right hhost]
  · rw [lines_targets hdel st₁ haddress, hnot, ← and_assoc]
    refine and_congr_left fun _ => ?_
    by_cases hhost : recordKey r ∈ hosts
    · simp [(hgone (Or.inl hhost)).targets, hhost]
    · simp [(hkept hhost).1, hhost]
  · intro hselected'
    obtain ⟨hhost, hkeeps⟩ := hnot.mp hselected'
    intro k e he
    exact lines_kept hdel st₁ haddress hkeeps k e
      ⟨((hkept hhost).2.1 k e he.2.1).mpr he.1, he.2⟩
  · intro k e he
    rcases lines_added hdel st₁ haddress he.1 he.2.1 with hrestored | ⟨hkeeps, e', he', htarget⟩
    · exact Or.inl hrestored
    · by_cases hhost : recordKey r ∈ hosts
      · exact absurd htarget ((hgone (Or.inl hhost)).schedules k e' he')
      · exact Or.inr ⟨hnot.mpr ⟨hhost, hkeeps⟩, e',
          ((hkept hhost).2.1 k e' htarget).mp he', htarget, he.2.2⟩
  · -- the walk is sound all along, so that storing the record leaves it
    intro hrestored e he
    have hsound := ((WalkSound.of_walk he).deleteHosts hdel hclean hdeleted).lines hdel hclean
      haddress
    exact hsound.scheduleOf ((lines_document hdel st₁ haddress).mpr (Or.inl hrestored))

namespace LoadEffect

variable {db db' : InventoryDb}

/-- A record that no line stores again is removed if what there is of it is selected. -/
theorem removed_iff (h : LoadEffect env previousGroups newGroups lines db db' r)
    (hrestored : ¬ Restored env newGroups lines r) :
    Removed db' r ↔
      ((db.document r).isSome → Erased env previousGroups newGroups lines r) ∧
      ((recordKey r ∈ db.targets ∨ ∃ k e, ScheduleOf db r k e) →
        Selected env previousGroups newGroups lines r) := by
  constructor
  · intro hremoved
    refine ⟨?_, ?_⟩
    · intro hdocument
      by_contra herased
      have hleft := h.document.mpr (Or.inr ⟨hdocument, herased⟩)
      rw [hremoved.document] at hleft
      cases hleft
    · rintro hthere
      by_contra hselected
      rcases hthere with htarget | ⟨k, e, he⟩
      · exact hremoved.targets (h.targets.mpr ⟨htarget, hselected⟩)
      · obtain ⟨e', he'⟩ := h.kept hselected k e he
        exact hremoved.schedules k e' he'
  · rintro ⟨hdocument, hthere⟩
    refine ⟨?_, ?_, ?_⟩
    · rw [← Option.not_isSome_iff_eq_none, h.document]
      rintro (hr | ⟨hbefore, herased⟩)
      · exact hrestored hr
      · exact herased (hdocument hbefore)
    · intro hmem
      obtain ⟨htarget, hselected⟩ := h.targets.mp hmem
      exact hselected (hthere (Or.inl htarget))
    · intro k e he
      rcases h.left k e he with ⟨hr, -⟩ | ⟨hselected, e', he'⟩
      · exact hrestored hr
      · exact hselected (hthere (Or.inr ⟨k, e', he'⟩))

/-- A record is kept if what is selected of it is not there, or is stored again. -/
theorem kept_iff (h : LoadEffect env previousGroups newGroups lines db db' r) :
    Kept db db' r ↔
      ((db.document r).isSome → Erased env previousGroups newGroups lines r →
        Restored env newGroups lines r) ∧
      (Selected env previousGroups newGroups lines r → recordKey r ∉ db.targets ∧
        ∀ k e, ScheduleOf db r k e →
          k = walkKey (recordKey r) ∧ Restored env newGroups lines r) := by
  constructor
  · intro hkept
    refine ⟨?_, ?_⟩
    · intro hdocument herased
      rcases h.document.mp (hkept.document hdocument) with hr | ⟨-, hnot⟩
      · exact hr
      · exact absurd herased hnot
    · intro hselected
      refine ⟨?_, ?_⟩
      · intro htarget
        exact (h.targets.mp (hkept.targets htarget)).2 hselected
      · intro k e he
        obtain ⟨e', he'⟩ := hkept.schedules k e he
        rcases h.left k e' he' with ⟨hr, hk⟩ | ⟨hnot, -⟩
        · exact ⟨hk, hr⟩
        · exact absurd hselected hnot
  · rintro ⟨hdocument, hthere⟩
    refine ⟨?_, ?_, ?_⟩
    · intro hbefore
      rw [h.document]
      by_cases herased : Erased env previousGroups newGroups lines r
      · exact Or.inl (hdocument hbefore herased)
      · exact Or.inr ⟨hbefore, herased⟩
    · intro htarget
      refine h.targets.mpr ⟨htarget, fun hselected => ?_⟩
      exact (hthere hselected).1 htarget
    · by_cases hselected : Selected env previousGroups newGroups lines r
      · intro k e he
        obtain ⟨rfl, hr⟩ := (hthere hselected).2 k e he
        exact h.walk hr e he
      · exact h.kept hselected

end LoadEffect

/-- **Hosts are removed as they should exactly when they are rightly selected.** -/
theorem groupRemoval_iff (env : LoaderEnv) (hdel : DeletesTarget env.deleteSchedules)
    (hclean : DeletesCleanly env.deleteSchedules) (previousGroups : Groups)
    (previousLines : List SourceRecord) (newGroups : Groups) (lines : List SourceRecord)
    (st st' : LoaderState) (errors : Bool)
    (h : loadInventory env previousGroups newGroups lines st = .ok (st', errors)) :
    GroupRemoval previousGroups previousLines newGroups lines st.db st'.db ↔
      RightlySelected env previousGroups previousLines newGroups lines st.db := by
  have heffect := loadEffect hdel hclean h
  obtain ⟨-, -, -, -, -, hplaced⟩ := loadInventory_eq_ok h
  refine and_congr (forall_congr' fun r => imp_congr_right fun _ => imp_congr_right fun hnot => ?_)
    (forall_congr' fun r => imp_congr_right fun _ => (heffect r).kept_iff)
  -- no longer described: no line stores it again
  refine (heffect r).removed_iff ?_
  rintro ⟨before, source, after, hsplit, hstores, -⟩
  exact hnot (describes_of_stores ((hplaced source).mp (by simp [hsplit])) hstores)

end TwoLoads

/-! ### A group and its line removed -/

/-- A RedBeat that deletes the entries of a target. -/
def deleteSchedulesOf : DeleteSchedulesByTarget := fun s target =>
  s.deleteWhere (fun e => e.target = some target) (s.loadSchedules "*")

theorem deletesTarget_deleteSchedulesOf : DeletesTarget deleteSchedulesOf := by
  intro s target k
  have hall : Glob.isMatch "*" k = true := Glob.matchTokens_lone_star k.toList
  rw [deleteSchedulesOf, ScheduleStore.lookup?_deleteWhere_loadSchedules]
  simp [hall]

theorem deletesCleanly_deleteSchedulesOf : DeletesCleanly deleteSchedulesOf := by
  intro s target k h
  rw [deleteSchedulesOf, ScheduleStore.fromKey_deleteWhere]
  split
  · intro herror
    cases herror
  · exact h

/-- Settings without profiles. -/
def plainEnv : LoaderEnv where
  lookup := ⟨fun _ => true, fun _ _ => true⟩
  deleteSchedules := deleteSchedulesOf
  configFromMongo := false
  config := ⟨Dict.empty, false, 60⟩
  expiryTimeChanged := false

/-- The host of the group `core`, on the port 1161 of the group's line. -/
def coreHost : InventoryRecord :=
  { port := 1161, address := some "10.0.0.1", version := some "2c", community := some "public",
    secret := none, securityEngine := none, walkInterval := 42000, maxOidToProcess := none,
    profiles := [], smartProfiles := some true, delete := some false, group := some "core" }

/-- The state with that host, its target and its walk. -/
def coreState : LoaderState where
  db := { InventoryDb.empty with
    schedules := ScheduleStore.empty.save
      (genWalkTask 60 coreHost (some "WalkProfile") (.str "core")).newEntry
    inventory := Dict.ofList [(coreHost.docKey, coreHost)]
    targets := ["10.0.0.1:1161"] }
  inventoryUi := []

/-- The load that finds neither the group nor its line deletes `10.0.0.1:161`. -/
def coreRemoved : LoaderState :=
  { coreState with
    db := (InventoryRecordManager.delete deleteSchedulesOf coreState.db "10.0.0.1:161").1 }

theorem loadInventory_core :
    loadInventory plainEnv coreGroups Dict.empty [] coreState = .ok (coreRemoved, false) := rfl

theorem groupRemoval_iff_core :
    GroupRemoval coreGroups (coreLines.take 1) Dict.empty [] coreState.db coreRemoved.db ↔
      RightlySelected plainEnv coreGroups (coreLines.take 1) Dict.empty [] coreState.db :=
  groupRemoval_iff plainEnv deletesTarget_deleteSchedulesOf deletesCleanly_deleteSchedulesOf
    coreGroups (coreLines.take 1) Dict.empty [] coreState coreRemoved false loadInventory_core

/-- The host stays. -/
theorem groupRemoval_fails :
    ¬ ∀ (env : LoaderEnv), DeletesTarget env.deleteSchedules →
      DeletesCleanly env.deleteSchedules →
      ∀ (previousGroups : Groups) (previousLines : List SourceRecord) (newGroups : Groups)
        (lines : List SourceRecord) (st st' : LoaderState) (errors : Bool),
        loadInventory env previousGroups newGroups lines st = .ok (st', errors) →
          GroupRemoval previousGroups previousLines newGroups lines st.db st'.db := by
  intro hclaim
  obtain ⟨hremoved, -⟩ := hclaim plainEnv deletesTarget_deleteSchedulesOf
    deletesCleanly_deleteSchedulesOf coreGroups (coreLines.take 1) Dict.empty [] coreState
    coreRemoved false loadInventory_core
  have hyields : GroupYields coreGroups (coreLines.take 1) ("10.0.0.1", 1161) :=
    ⟨coreRecords.head (by decide), by decide, by decide⟩
  have hnot : ¬ Describes Dict.empty [] ("10.0.0.1", 1161) := by simp [Describes]
  exact (hremoved _ hyields hnot).targets (by decide)

end Sc4snmp
