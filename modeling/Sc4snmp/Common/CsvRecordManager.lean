import Sc4snmp.Lib.KeyedRows
import Sc4snmp.Lib.PyVal

/-!
# The file of discovered devices

`common/csv_record_manager.py`: a file of rows with a text in each column.  A manager reads the
rows of the file, deletes rows and appends new ones, and writes all of them back.

A file is what the `csv` module makes of it, a parameter that reads back the rows it has
written.  The values of a device are the texts that `str` gives for them.

## Main definitions

* `DeviceRow`, `DeviceDetail` — a row, and the values it is made of.
* `CsvModule` — files, and the rows below their header.
* `normalizeRow`, `CsvRecordManager` — the source.
-/

namespace Sc4snmp

/-- A row: the texts of `columns`. -/
structure DeviceRow where
  key : String
  subnet : String
  ip : String
  port : String
  version : String
  group : String
  secret : String
  community : String
  deriving DecidableEq, Repr

/-- What is found out about a device: what `str` gives for each value, `none` for `None`. -/
structure DeviceDetail where
  key : Option String
  subnet : Option String
  ip : Option String
  port : Option String
  version : Option String
  group : Option String
  secret : Option String
  community : Option String
  deriving DecidableEq, Repr

/-- `csv.DictWriter` and `csv.DictReader` with the header `columns`. -/
structure CsvModule where
  File : Type
  writeRows : List DeviceRow → File
  readRows : File → Except PyError (List DeviceRow)
  /-- The rows that are written are read back. -/
  readRows_writeRows : ∀ rows, readRows (writeRows rows) = .ok rows

/-- `str.strip`. -/
def stripText (s : String) : String := String.ofList (Text.strip s.toList)

theorem stripText_stripText (s : String) : stripText (stripText s) = stripText s := by
  rw [stripText, stripText, String.toList_ofList, Text.strip_strip]

/-- A value of `_normalize_row`. -/
def normalizeValue : Option String → String
  | some v => stripText v
  | none => ""

/-- `_normalize_row`. -/
def normalizeRow (row : DeviceDetail) : DeviceRow where
  key := normalizeValue row.key
  subnet := normalizeValue row.subnet
  ip := normalizeValue row.ip
  port := normalizeValue row.port
  version := normalizeValue row.version
  group := normalizeValue row.group
  secret := normalizeValue row.secret
  community := normalizeValue row.community

/-- A row as what is found out about a device. -/
def DeviceRow.detail (row : DeviceRow) : DeviceDetail where
  key := some row.key
  subnet := some row.subnet
  ip := some row.ip
  port := some row.port
  version := some row.version
  group := some row.group
  secret := some row.secret
  community := some row.community

theorem normalizeValue_normalizeValue (v : Option String) :
    normalizeValue (some (normalizeValue v)) = normalizeValue v := by
  cases v with
  | none => rfl
  | some s => exact stripText_stripText s

/-- A row that is normalised is not changed again. -/
theorem normalizeRow_normalizeRow (row : DeviceDetail) :
    normalizeRow (normalizeRow row).detail = normalizeRow row := by
  simp only [normalizeRow, DeviceRow.detail, normalizeValue_normalizeValue]

/-- `CSVRecordManager`. -/
structure CsvRecordManager where
  rows : List DeviceRow

namespace CsvRecordManager

/-- `__init__`: the file, which is made when it is not there, and its rows. -/
def init (csv : CsvModule) : Option csv.File → Except PyError (csv.File × CsvRecordManager)
  | none => .ok (csv.writeRows [], ⟨[]⟩)
  | some file => do return (file, ⟨← csv.readRows file⟩)

/-- `_write_to_csv`. -/
def writeToCsv (csv : CsvModule) (manager : CsvRecordManager) : csv.File :=
  csv.writeRows manager.rows

/-- `create_rows`, up to the writing. -/
def createRows (manager : CsvRecordManager) (inputs : List DeviceDetail)
    (deleteFlag : Option Bool) : CsvRecordManager :=
  let newRows := inputs.map normalizeRow
  let existing := if deleteFlag = some true then [] else manager.rows
  ⟨KeyedRows.appendNew existing manager.rows newRows⟩

/-- `delete_rows_by_key`. -/
def deleteRowsByKey (manager : CsvRecordManager) (key : Option String) : CsvRecordManager :=
  ⟨manager.rows.filter fun row => stripText row.key ≠ stripText (key.getD "None")⟩

end CsvRecordManager

end Sc4snmp
