import Sc4snmp.Common.CsvRecordManager
import Sc4snmp.Lib.Run

/-!
# The store of discovered devices

`Discovery.add_devices_detail_to_csv`: a run of a discovery puts its devices into the file that
all discoveries share, under a lock.  With the flag to delete them the devices of earlier runs
of the discovery go.

## Main definitions

* `addDevicesDetailToCsv` — the source.
* `DiscoveryRun`, `storeStep` — a run, and what it does to the file.
* `rowsOf` — the rows of a file.
* `RunStored` — what a run owes.

## Main results

* `addDevicesDetailToCsv_eq` — a run replaces or extends the rows of its key.
* `deviceStore` — **after every history no row is there twice, and the next run stores its
  devices and leaves those of the others alone**.
-/

namespace Sc4snmp

open KeyedRows

variable {csv : CsvModule}

/-- `add_devices_detail_to_csv`, with the file it leaves. -/
def addDevicesDetailToCsv (csv : CsvModule) (file : Option csv.File)
    (snmpDevicesDetail : List DeviceDetail) (deleteFlag : Option Bool)
    (discoveryName : Option String) : Option csv.File × Except PyError Unit :=
  match CsvRecordManager.init csv file with
  | .error err => (file, .error err)
  | .ok (_, csvService) =>
    let csvService :=
      if deleteFlag = some true then csvService.deleteRowsByKey discoveryName else csvService
    let csvService := csvService.createRows snmpDevicesDetail deleteFlag
    (some (csvService.writeToCsv csv), .ok ())

/-- The rows of a file, none if it is not there. -/
def rowsOf (csv : CsvModule) : Option csv.File → Except PyError (List DeviceRow)
  | none => .ok []
  | some file => csv.readRows file

/-- A run of a discovery: its name has no white space around it and is the key of its devices. -/
structure DiscoveryRun where
  name : String
  stripped : stripText name = name
  deleteFlag : Option Bool
  details : List DeviceDetail
  key_eq : ∀ detail ∈ details, detail.key = some name

/-- The rows of a run, normalised. -/
def DiscoveryRun.rows (run : DiscoveryRun) : List DeviceRow := run.details.map normalizeRow

/-- What a run does to the file. -/
def storeStep (csv : CsvModule) (file : Option csv.File) (run : DiscoveryRun) : Option csv.File :=
  (addDevicesDetailToCsv csv file run.details run.deleteFlag (some run.name)).1

/-- The rows are normalised. -/
def Normalized (rows : List DeviceRow) : Prop := ∀ row ∈ rows, normalizeRow row.detail = row

theorem Normalized.key {rows : List DeviceRow} (h : Normalized rows) {row : DeviceRow}
    (hrow : row ∈ rows) : stripText row.key = row.key :=
  congrArg DeviceRow.key (h row hrow)

theorem DiscoveryRun.key_of_mem {run : DiscoveryRun} : ∀ row ∈ run.rows, row.key = run.name := by
  intro row hrow
  obtain ⟨detail, hdetail, rfl⟩ := List.mem_map.mp hrow
  rw [normalizeRow, run.key_eq detail hdetail]
  exact run.stripped

/-- The rows of a run take the place of those of its key, or the new ones go behind. -/
def DiscoveryRun.apply (run : DiscoveryRun) (rows : List DeviceRow) : List DeviceRow :=
  if run.deleteFlag = some true then replaceKey DeviceRow.key run.name rows run.rows
  else extend rows run.rows

/-- **A run replaces or extends the rows of its key.** -/
theorem addDevicesDetailToCsv_eq {file : Option csv.File} {rows : List DeviceRow}
    (hrows : rowsOf csv file = .ok rows) (hnormalized : Normalized rows) (run : DiscoveryRun) :
    addDevicesDetailToCsv csv file run.details run.deleteFlag (some run.name) =
      (some (csv.writeRows (run.apply rows)), .ok ()) := by
  have hinit : ∃ file', CsvRecordManager.init csv file = .ok (file', ⟨rows⟩) := by
    cases file with
    | none =>
      cases hrows
      exact ⟨_, rfl⟩
    | some file =>
      refine ⟨file, ?_⟩
      rw [CsvRecordManager.init, show csv.readRows file = .ok rows from hrows]
      rfl
  obtain ⟨file', hinit⟩ := hinit
  have hdelete : rows.filter (fun row => stripText row.key ≠ stripText run.name) =
      ofOtherKeys DeviceRow.key run.name rows := by
    refine List.filter_congr fun row hrow => ?_
    rw [hnormalized.key hrow, run.stripped]
  rw [addDevicesDetailToCsv, hinit, DiscoveryRun.apply]
  by_cases hflag : run.deleteFlag = some true
  · simp only [hflag, if_true, CsvRecordManager.writeToCsv, CsvRecordManager.createRows,
      CsvRecordManager.deleteRowsByKey, Option.getD_some, hdelete]
    rfl
  · simp only [hflag, if_false, CsvRecordManager.writeToCsv, CsvRecordManager.createRows]
    rfl

theorem DiscoveryRun.nodup_apply {rows : List DeviceRow} (h : rows.Nodup) (run : DiscoveryRun) :
    (run.apply rows).Nodup := by
  unfold DiscoveryRun.apply
  split
  · exact nodup_replaceKey run.key_of_mem h
  · exact nodup_extend h run.rows

/-- A row that is there behind a run was there before it, or is one of the run. -/
theorem DiscoveryRun.mem_or_mem_of_apply {run : DiscoveryRun} {rows : List DeviceRow}
    {row : DeviceRow} (h : row ∈ run.apply rows) : row ∈ rows ∨ row ∈ run.rows := by
  unfold DiscoveryRun.apply at h
  split at h
  · exact (mem_or_mem_of_appendNew h).imp_left fun hrow => (List.mem_filter.mp hrow).1
  · exact mem_or_mem_of_appendNew h

theorem DiscoveryRun.normalized_rows (run : DiscoveryRun) : Normalized run.rows := by
  intro row hrow
  obtain ⟨detail, -, rfl⟩ := List.mem_map.mp hrow
  exact normalizeRow_normalizeRow detail

theorem DiscoveryRun.normalized_apply {rows : List DeviceRow} (h : Normalized rows)
    (run : DiscoveryRun) : Normalized (run.apply rows) := fun row hrow =>
  (run.mem_or_mem_of_apply hrow).elim (h row) (run.normalized_rows row)

/-! ### Histories -/

/-- What a run owes, given the rows before and after it. -/
structure RunStored (run : DiscoveryRun) (rows rows' : List DeviceRow) : Prop where
  others : ofOtherKeys DeviceRow.key run.name rows' = ofOtherKeys DeviceRow.key run.name rows
  /-- With the flag the rows of the key are the distinct rows of the run. -/
  replaced : run.deleteFlag = some true →
    ofKey DeviceRow.key run.name rows' = run.rows.eraseDups
  /-- Without it the distinct rows of the run that are new go behind them. -/
  appended : run.deleteFlag ≠ some true → ofKey DeviceRow.key run.name rows' =
    ofKey DeviceRow.key run.name rows ++
      (run.rows.filter (· ∉ ofKey DeviceRow.key run.name rows)).eraseDups

theorem runStored_apply (run : DiscoveryRun) (rows : List DeviceRow) :
    RunStored run rows (run.apply rows) := by
  unfold DiscoveryRun.apply
  split
  · next hflag => exact {
      others := ofOtherKeys_replaceKey run.key_of_mem rows
      replaced := fun _ => ofKey_replaceKey run.key_of_mem rows
      appended := fun hnot => absurd hflag hnot }
  · next hflag => exact {
      others := ofOtherKeys_extend run.key_of_mem rows
      replaced := fun hset => absurd hset hflag
      appended := fun _ => ofKey_extend run.key_of_mem rows }

/-- The file can be read, no row is there twice, and all of them are normalised. -/
def FileInv (csv : CsvModule) (file : Option csv.File) : Prop :=
  ∃ rows, rowsOf csv file = .ok rows ∧ rows.Nodup ∧ Normalized rows

theorem fileInv_none : FileInv csv none := ⟨[], rfl, List.nodup_nil, fun _ h => by cases h⟩

/-- A run keeps the invariant of the file. -/
theorem fileInv_storeStep {file : Option csv.File} (h : FileInv csv file) (run : DiscoveryRun) :
    FileInv csv (storeStep csv file run) := by
  obtain ⟨rows, hrows, hnodup, hnormalized⟩ := h
  refine ⟨run.apply rows, ?_, run.nodup_apply hnodup, run.normalized_apply hnormalized⟩
  rw [storeStep, addDevicesDetailToCsv_eq hrows hnormalized]
  exact csv.readRows_writeRows _

/-- **After every history of runs that began without a file no row is there twice, and the next
run stores its devices and leaves those of other discoveries alone.** -/
theorem deviceStore (csv : CsvModule) (history : List DiscoveryRun) :
    ∃ rows, rowsOf csv (Run.final (storeStep csv) none history) = .ok rows ∧ rows.Nodup ∧
      ∀ run : DiscoveryRun,
        (addDevicesDetailToCsv csv (Run.final (storeStep csv) none history) run.details
          run.deleteFlag (some run.name)).2 = .ok () ∧
        ∃ rows', rowsOf csv (storeStep csv (Run.final (storeStep csv) none history) run) =
            .ok rows' ∧ rows'.Nodup ∧ RunStored run rows rows' := by
  have hinv : FileInv csv (Run.final (storeStep csv) none history) :=
    Run.final_of_steps fileInv_none fun run _ _ h => fileInv_storeStep h run
  obtain ⟨rows, hrows, hnodup, hnormalized⟩ := hinv
  refine ⟨rows, hrows, hnodup, fun run => ?_⟩
  have hrun := addDevicesDetailToCsv_eq hrows hnormalized run
  refine ⟨congrArg Prod.snd hrun, run.apply rows, ?_, run.nodup_apply hnodup,
    runStored_apply run rows⟩
  rw [storeStep, hrun]
  exact csv.readRows_writeRows _

end Sc4snmp
