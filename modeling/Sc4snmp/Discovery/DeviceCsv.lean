import Sc4snmp.Discovery.DeviceStore
import Sc4snmp.Lib.Csv

/-!
# The file of the devices

`csv.DictWriter` and `csv.DictReader` with the header `columns`.  The rows that are written are
read back, unless a field is longer than `csv.field_size_limit`.  So there is a module of csv
as the store needs it, one without a limit, and the real one reads the same as long as all rows
are short.

A carriage return ends a line for `open` as well.  It can only stand inside quotes, where the
reader goes on over the end of a line.  What becomes of files that have not been written here
is left out.

## Main definitions

* `writeDevices`, `readDevices` — the file of some rows, and the rows of a file.
* `unlimitedCsv` — the module of csv without a limit.

## Main results

* `readDevices_writeDevices` — **the rows that are written are read back**.
* `readDevices_final` — after every history of runs with short rows the limit changes nothing.
-/

namespace Sc4snmp

/-- `columns`. -/
def csvColumns : List String :=
  ["key", "subnet", "ip", "port", "version", "group", "secret", "community"]

/-- The values of a row in the order of the columns. -/
def DeviceRow.values (row : DeviceRow) : List String :=
  [row.key, row.subnet, row.ip, row.port, row.version, row.group, row.secret, row.community]

/-- The row of some values. -/
def DeviceRow.ofValues? : List String → Option DeviceRow
  | [key, subnet, ip, port, version, group, secret, community] =>
    some ⟨key, subnet, ip, port, version, group, secret, community⟩
  | _ => none

/-- `writeheader` and `writerows`. -/
def writeDevices (rows : List DeviceRow) : List Char :=
  Csv.write ((csvColumns :: rows.map DeviceRow.values).map fun record => record.map String.toList)

/-- `list(csv.DictReader(f))`, which leaves out empty lines. -/
def readDevices (limit : ℕ) (text : List Char) : Except PyError (List DeviceRow) :=
  match (Csv.read limit text).1.map (fun record => record.map String.ofList),
      (Csv.read limit text).2 with
  | _, true => .error .other
  | [], false => .ok []
  | header :: records, false =>
    if header = csvColumns then
      match (records.filter (· ≠ [])).mapM DeviceRow.ofValues? with
      | some rows => .ok rows
      | none => .error .attributeError
    else .error .keyError

/-- No value of the rows is longer than the limit. -/
def ShortRows (limit : ℕ) (rows : List DeviceRow) : Prop :=
  ∀ row ∈ rows, ∀ value ∈ row.values, value.toList.length ≤ limit

theorem mapM_ofValues? (rows : List DeviceRow) :
    (rows.map DeviceRow.values).mapM DeviceRow.ofValues? = some rows := by
  induction rows with
  | nil => rfl
  | cons row rows ih =>
    rw [List.map_cons, List.mapM_cons, ih]
    rfl

/-- **The rows that are written are read back.** -/
theorem readDevices_writeDevices {limit : ℕ} (hlimit : 9 ≤ limit) {rows : List DeviceRow}
    (h : ShortRows limit rows) : readDevices limit (writeDevices rows) = .ok rows := by
  have hheader : ∀ name ∈ csvColumns, name.toList.length ≤ 9 := by decide
  have hread : Csv.read limit (writeDevices rows) =
      ((csvColumns :: rows.map DeviceRow.values).map (fun record => record.map String.toList),
        false) := by
    refine Csv.read_write fun record hrecord field hfield => ?_
    obtain ⟨values, hvalues, rfl⟩ := List.mem_map.mp hrecord
    obtain ⟨value, hvalue, rfl⟩ := List.mem_map.mp hfield
    rcases List.mem_cons.mp hvalues with rfl | hvalues
    · exact (hheader value hvalue).trans hlimit
    · obtain ⟨row, hrow, rfl⟩ := List.mem_map.mp hvalues
      exact h row hrow value hvalue
  have htexts : ∀ records : List (List String),
      (records.map fun record => record.map String.toList).map
        (fun record => record.map String.ofList) = records := by
    intro records
    rw [List.map_map]
    refine (List.map_congr_left fun record _ => ?_).trans (List.map_id records)
    exact (List.map_map ..).trans
      ((List.map_congr_left fun s _ => String.ofList_toList).trans (List.map_id record))
  have hnonempty : (rows.map DeviceRow.values).filter (· ≠ []) = rows.map DeviceRow.values := by
    refine List.filter_eq_self.mpr fun values hvalues => decide_eq_true ?_
    obtain ⟨row, -, rfl⟩ := List.mem_map.mp hvalues
    exact List.cons_ne_nil _ _
  rw [readDevices, hread, htexts]
  dsimp only
  rw [if_pos rfl, hnonempty, mapM_ofValues?]

/-- No value is longer than the file. -/
theorem shortRows_length (rows : List DeviceRow) :
    ShortRows (writeDevices rows).length rows := by
  intro row hrow value hvalue
  refine Csv.length_le_write (List.mem_map_of_mem (List.mem_cons_of_mem _ ?_))
    (List.mem_map_of_mem hvalue)
  exact List.mem_map_of_mem hrow

/-- The module of csv without a limit. -/
def unlimitedCsv : CsvModule where
  File := List Char
  writeRows := writeDevices
  readRows := fun text => readDevices (max 9 text.length) text
  readRows_writeRows := fun rows => readDevices_writeDevices (le_max_left _ _)
    fun row hrow value hvalue => (shortRows_length rows row hrow value hvalue).trans
      (le_max_right _ _)

/-- The rows of the file as the reader with a limit has them. -/
def rowsAtLimit (limit : ℕ) : Option (List Char) → Except PyError (List DeviceRow)
  | none => .ok []
  | some text => readDevices limit text

/-- **After every history of runs with short rows the limit changes nothing.** -/
theorem readDevices_final {limit : ℕ} (hlimit : 9 ≤ limit) {history : List DiscoveryRun}
    (h : ∀ run ∈ history, ShortRows limit run.rows) :
    rowsAtLimit limit (Run.final (storeStep unlimitedCsv) none history) =
      rowsOf unlimitedCsv (Run.final (storeStep unlimitedCsv) none history) := by
  have hinv : ∃ rows, rowsOf unlimitedCsv (Run.final (storeStep unlimitedCsv) none history) =
      .ok rows ∧ Normalized rows ∧ ShortRows limit rows ∧
        rowsAtLimit limit (Run.final (storeStep unlimitedCsv) none history) = .ok rows := by
    refine Run.final_of_steps (I := fun file => ∃ rows, rowsOf unlimitedCsv file = .ok rows ∧
      Normalized rows ∧ ShortRows limit rows ∧ rowsAtLimit limit file = .ok rows) ?_ ?_
    · refine ⟨[], rfl, fun row hrow => ?_, fun row hrow => ?_, rfl⟩
      · cases hrow
      · cases hrow
    · rintro run hrun file ⟨rows, hrows, hnormalized, hshort, -⟩
      have hshort' : ShortRows limit (run.apply rows) := fun row hrow =>
        (run.mem_or_mem_of_apply hrow).elim (hshort row) (h run hrun row)
      refine ⟨run.apply rows, ?_, run.normalized_apply hnormalized, hshort', ?_⟩
      · rw [storeStep, addDevicesDetailToCsv_eq hrows hnormalized]
        exact unlimitedCsv.readRows_writeRows _
      · rw [storeStep, addDevicesDetailToCsv_eq hrows hnormalized]
        exact readDevices_writeDevices hlimit hshort'
  obtain ⟨rows, hrows, -, -, hlimited⟩ := hinv
  exact hlimited.trans hrows.symm

/-! ### Two discoveries -/

/-- A run that finds one device with SNMP v2c. -/
def oneDeviceRun (name : String) (hstripped : stripText name = name) (deleteFlag : Option Bool)
    (ip : String) : DiscoveryRun where
  name := name
  stripped := hstripped
  deleteFlag := deleteFlag
  details := [{ key := some name, subnet := some "10.0.0.0/24", ip := some ip, port := some "161",
                version := some "2c", group := none, secret := none, community := some "public" }]
  key_eq := by
    intro detail hdetail
    rw [List.mem_singleton.mp hdetail]

/-- The device of `lab` has got another address, and its rows are deleted first: there is one
row of `lab` afterwards, and the row of `office` is left. -/
theorem deviceStore_lab :
    let history := [oneDeviceRun "lab" (by decide +kernel) none "10.0.0.1",
      oneDeviceRun "office" (by decide +kernel) (some false) "10.0.0.3"]
    let run := oneDeviceRun "lab" (by decide +kernel) (some true) "10.0.0.2"
    ∃ rows', rowsOf unlimitedCsv (storeStep unlimitedCsv
        (Run.final (storeStep unlimitedCsv) none history) run) = .ok rows' ∧
      (KeyedRows.ofKey DeviceRow.key "lab" rows').map DeviceRow.ip = ["10.0.0.2"] ∧
      (KeyedRows.ofOtherKeys DeviceRow.key "lab" rows').map DeviceRow.ip = ["10.0.0.3"] := by
  intro history run
  obtain ⟨rows, hrows, -, hnext⟩ := deviceStore unlimitedCsv history
  obtain ⟨-, rows', hrows', -, hstored⟩ := hnext run
  have hbefore : rowsOf unlimitedCsv (Run.final (storeStep unlimitedCsv) none history) =
      .ok (history.flatMap DiscoveryRun.rows) := by decide +kernel
  refine ⟨rows', hrows', ?_, ?_⟩
  · refine (congrArg (List.map DeviceRow.ip) (hstored.replaced rfl)).trans ?_
    decide +kernel
  · refine (congrArg (List.map DeviceRow.ip) hstored.others).trans ?_
    rw [Except.ok.inj (hrows.symm.trans hbefore)]
    decide +kernel

end Sc4snmp
