import Sc4snmp.Common.InventoryRecord
import Sc4snmp.Lib.Run

/-!
# Moving the configuration into the UI collections

`configure_ui_database` of `inventory/loader.py`: the first load that takes its
configuration from the database copies the inventory, the groups and the profiles of
the files into the UI collections.  The flag that says so is written first.  Whatever
fails after that leaves it standing, so no later load copies anything.

An operation of the database may fail; an insertion that does leaves some of its
documents behind, but not all, and any other operation nothing (one that is carried out
although its answer is lost is left out).  What the groups and the profiles hold is only
copied, and a type here.

## Main definitions

* `UiLoad` — one load: its setting, its files, and the operations that fail.
* `assignInventoryValues`, `addGroupsAndProfiles`, `configureUiDatabase` — the source.
* `FailureAtomic` — what a load owes.
* `Convertible`, `CopySucceeds`, `Migratable` — the lines that convert, the loads that get
  through, and those that owe nothing.

## Main results

* `exists_convertInventory_iff` — what an inventory needs to be converted.
* `failureAtomic_iff` — one load.
* `failureAtomic_along_iff` — **along every sequence of loads, migration is failure-atomic
  exactly when each load that marks it as done gets through the copy**.
-/

namespace Sc4snmp

namespace UiMigration

/-! ### The files -/

/-- A section of the configuration file. -/
inductive YamlSection (α : Type)
  | absent
  | mapping (entries : Dict String α)
  /-- The key is there without a mapping: with nothing, or a list. -/
  | other

/-- The configuration file. -/
inductive ConfigFile (α : Type)
  | missing
  /-- It cannot be read, or `in` raises for its content: a number, or nothing. -/
  | unreadable
  /-- A list or a text counts as a mapping, of which each section it has in it is `other`. -/
  | mapping (groups profiles : YamlSection α)

/-- The operations of a migration on the database. -/
inductive UiOperation
  | findFlag
  | writeFlag
  | insertInventory
  | insertGroups
  | insertProfiles
  | dropInventory
  | dropGroups
  | dropProfiles
  deriving DecidableEq, Repr

/-- One load of the inventory. -/
structure UiLoad (α : Type) where
  /-- `CONFIG_FROM_MONGO`. -/
  configFromMongo : Bool
  /-- The lines of the inventory file, if it can be read. -/
  inventory : Option (List SourceRecord)
  config : ConfigFile α
  /-- How many documents an operation that fails leaves behind. -/
  fails : UiOperation → Option ℕ

/-- The collections a migration writes. -/
structure UiDatabase (α : Type) where
  /-- `used_ui`; no document counts as `False`. -/
  usedUi : Bool
  inventoryUi : List SourceRecord
  groupsUi : List (String × α)
  profilesUi : List (String × α)

variable {α : Type}

/-! ### The conversion of a line -/

/-- A column under another name, if it is there. -/
def renameColumn (key newKey : String) (line : SourceRecord) : SourceRecord :=
  match line.columns.get? key with
  | some v => { line with columns := (line.columns.erase key).insert newKey v }
  | none => line

/-- `inventory_line[field] = human_bool(inventory_line[field], False)`. -/
def setBoolean (field : String) (line : SourceRecord) : Except PyError SourceRecord := do
  let flag ← humanBool (← line.getItem field)
  return line.set field (.bool flag)

/-- The port of a line; nothing, or 0, is the default. -/
def convertPort (raw : PyVal) : Except PyError ℤ :=
  if raw.truthy then raw.toInt else .ok 161

/-- The walk interval of a line, which is half an hour at least. -/
def convertWalkInterval (raw : PyVal) : Except PyError ℤ := do
  let interval ← raw.toInt
  return if 1800 ≤ interval then interval else 1800

/-- The number of OIDs of a line; a blank is nothing. -/
def convertMaxOid (raw : PyVal) : Except PyError PyVal :=
  if raw.truthy ∧ raw.isBlank = false then raw.toInt.map PyVal.int else .ok .none

/-- `INVENTORY_KEYS_TRANSFORM`. -/
def renameColumns (line : SourceRecord) : SourceRecord :=
  renameColumn "SmartProfiles" "smart_profiles"
    (renameColumn "securityEngine" "security_engine" line)

/-- The body of the loop over the lines of the inventory. -/
def convertLine (line : SourceRecord) : Except PyError SourceRecord := do
  let line ← setBoolean "delete" (renameColumns line)
  let line ← setBoolean "smart_profiles" line
  let port ← convertPort (line.columns.getD "port" (.int 161))
  let walkInterval ← convertWalkInterval (← line.getItem "walk_interval")
  let maxOid ← convertMaxOid (line.get "max_oid_to_process")
  return ((line.set "max_oid_to_process" maxOid).set "port" (.int port)).set "walk_interval"
    (.int walkInterval)

/-- `inventory_line["address"].startswith("#")`. -/
def isComment (line : SourceRecord) : Except PyError Bool := do
  match ← line.getItem "address" with
  | .str address => return Text.startsWith address "#"
  | _ => .error .attributeError

/-- The lines `assign_inventory_values` inserts. -/
def convertInventory : List SourceRecord → Except PyError (List SourceRecord)
  | [] => .ok []
  | line :: lines => do
    let converted ← convertLine line
    let comment ← isComment converted
    let rest ← convertInventory lines
    return if comment then rest else converted :: rest

/-- The groups and profiles `add_groups_and_profiles_from_config_runtime` reads. -/
def readConfigRuntime : ConfigFile α → Except PyError (List (String × α) × List (String × α))
  | .missing => .ok ([], [])
  | .unreadable => .error .other
  | .mapping groups profiles => do
    let allProfiles ← match profiles with
      | .absent => .ok []
      | .mapping entries => .ok entries.entries
      | .other => .error .attributeError
    let allGroups ← match groups with
      | .absent => .ok []
      | .mapping entries => .ok entries.entries
      | .other => .error .attributeError
    return (allGroups, allProfiles)

/-! ### The operations -/

/-- What is done to the database, and whether it raises. -/
abbrev UiStep (α : Type) := UiDatabase α → UiDatabase α × Except PyError Unit

/-- One step after another, unless the first one raises. -/
def andThen (first second : UiStep α) : UiStep α := fun db =>
  match first db with
  | (db', .ok ()) => second db'
  | (db', .error err) => (db', .error err)

/-- `insert_many`, which takes no empty list; an insertion that fails leaves documents behind,
but not the last one. -/
def insertMany {β : Type} (fails : Option ℕ) (docs collection : List β) :
    List β × Except PyError Unit :=
  if docs = [] then (collection, .error .typeError)
  else match fails with
    | none => (collection ++ docs, .ok ())
    | some written => (collection ++ docs.dropLast.take written, .error .other)

/-- An operation that has no documents; one that fails is not carried out. -/
def operate (load : UiLoad α) (op : UiOperation) (write : UiDatabase α → UiDatabase α) : UiStep α :=
  fun db => match load.fails op with
    | none => (write db, .ok ())
    | some _ => (db, .error .other)

/-- `assign_inventory_values`. -/
def assignInventoryValues (load : UiLoad α) : UiStep α := fun db =>
  match load.inventory with
  | none => (db, .error .other)
  | some lines =>
    match convertInventory lines with
    | .error err => (db, .error err)
    | .ok rows =>
      let (inventoryUi, result) := insertMany (load.fails .insertInventory) rows db.inventoryUi
      ({ db with inventoryUi }, result)

/-- The insertion of the groups, unless there are none. -/
def insertGroups (load : UiLoad α) (groups : List (String × α)) : UiStep α := fun db =>
  if groups = [] then (db, .ok ())
  else
    let (groupsUi, result) := insertMany (load.fails .insertGroups) groups db.groupsUi
    ({ db with groupsUi }, result)

/-- The insertion of the profiles, unless there are none. -/
def insertProfiles (load : UiLoad α) (profiles : List (String × α)) : UiStep α := fun db =>
  if profiles = [] then (db, .ok ())
  else
    let (profilesUi, result) := insertMany (load.fails .insertProfiles) profiles db.profilesUi
    ({ db with profilesUi }, result)

/-- `add_groups_and_profiles_from_config_runtime`. -/
def addGroupsAndProfiles (load : UiLoad α) : UiStep α := fun db =>
  match readConfigRuntime load.config with
  | .error err => (db, .error err)
  | .ok (groups, profiles) => andThen (insertGroups load groups) (insertProfiles load profiles) db

/-- The branch that copies. -/
def migrate (load : UiLoad α) : UiStep α :=
  andThen (operate load .writeFlag fun db => { db with usedUi := true })
    (andThen (assignInventoryValues load) (addGroupsAndProfiles load))

/-- The branch that drops. -/
def dropUi (load : UiLoad α) : UiStep α :=
  andThen (operate load .writeFlag fun db => { db with usedUi := false })
    (andThen (operate load .dropInventory fun db => { db with inventoryUi := [] })
      (andThen (operate load .dropGroups fun db => { db with groupsUi := [] })
        (operate load .dropProfiles fun db => { db with profilesUi := [] })))

/-- `configure_ui_database`. -/
def configureUiDatabase (load : UiLoad α) : UiStep α :=
  andThen (operate load .findFlag id) fun db =>
    if load.configFromMongo ∧ db.usedUi = false then migrate load db
    else if load.configFromMongo = false ∧ db.usedUi then dropUi load db
    else (db, .ok ())

/-! ### What a load owes -/

/-- The whole configuration of the files is in the collections, after what was there. -/
def WholeCopy (load : UiLoad α) (db db' : UiDatabase α) : Prop :=
  ∃ lines rows groups profiles, load.inventory = some lines ∧ convertInventory lines = .ok rows ∧
    readConfigRuntime load.config = .ok (groups, profiles) ∧
    db'.inventoryUi = db.inventoryUi ++ rows ∧ db'.groupsUi = db.groupsUi ++ groups ∧
    db'.profilesUi = db.profilesUi ++ profiles

/-- The columns of a line can be converted: the flags, the walk interval and the address
are there, and what has to be a number is one. -/
structure Convertible (line : SourceRecord) : Prop where
  delete : ∃ raw flag, line.columns.get? "delete" = some raw ∧ humanBool raw = .ok flag
  smartProfiles : ∃ raw flag, (line.columns.get? "SmartProfiles").or
    (line.columns.get? "smart_profiles") = some raw ∧ humanBool raw = .ok flag
  port : (line.columns.getD "port" (.int 161)).truthy = false ∨
    ∃ n, (line.columns.getD "port" (.int 161)).toInt = .ok n
  walkInterval : ∃ raw n, line.columns.get? "walk_interval" = some raw ∧ raw.toInt = .ok n
  maxOid : (line.get "max_oid_to_process").truthy = false ∨
    (line.get "max_oid_to_process").isBlank ∨ ∃ n, (line.get "max_oid_to_process").toInt = .ok n
  address : ∃ address, line.columns.get? "address" = some (.str address)

/-- The line is not commented out. -/
def Listed (line : SourceRecord) : Prop :=
  ∃ address, line.columns.get? "address" = some (.str address) ∧
    Text.startsWith address "#" = false

/-- Nothing fails, and the files can be copied. -/
structure CopySucceeds (load : UiLoad α) : Prop where
  inventory : ∃ lines, load.inventory = some lines ∧ (∀ line ∈ lines, Convertible line) ∧
    (∃ line ∈ lines, Listed line) ∧ load.fails .insertInventory = none
  config : ∃ groups profiles, readConfigRuntime load.config = .ok (groups, profiles) ∧
    (groups = [] ∨ load.fails .insertGroups = none) ∧
    (profiles = [] ∨ load.fails .insertProfiles = none)

/-- A load in which nothing fails. -/
structure Undisturbed (load : UiLoad α) : Prop where
  configFromMongo : load.configFromMongo = true
  findFlag : load.fails .findFlag = none
  writeFlag : load.fails .writeFlag = none
  copy : CopySucceeds load

/-- **Migration is failure-atomic at a load**: it is marked as done only if the whole copy
was made, and after a failed attempt an undisturbed load makes it. -/
structure FailureAtomic (db : UiDatabase α) (load : UiLoad α) : Prop where
  marked : db.usedUi = false → (configureUiDatabase load db).1.usedUi = true →
    WholeCopy load db (configureUiDatabase load db).1
  retried : db.usedUi = false → load.configFromMongo = true →
    (∃ err, (configureUiDatabase load db).2 = .error err) → ∀ later : UiLoad α, Undisturbed later →
      WholeCopy later (configureUiDatabase load db).1
        (configureUiDatabase later (configureUiDatabase load db).1).1

/-- The load does not begin a migration, or fails before it marks it as done, or copies
everything. -/
def Migratable (db : UiDatabase α) (load : UiLoad α) : Prop :=
  db.usedUi = true ∨ load.configFromMongo = false ∨ load.fails .findFlag ≠ none ∨
    load.fails .writeFlag ≠ none ∨ CopySucceeds load

/-! ### Lines that can be converted -/

section Conversion

variable {line line' : SourceRecord}

theorem get?_renameColumn {key newKey : String} (h : key ≠ newKey) (k : String) :
    (renameColumn key newKey line).columns.get? k =
      if k = newKey then (line.columns.get? key).or (line.columns.get? newKey)
      else if k = key then none else line.columns.get? k := by
  unfold renameColumn
  cases hkey : line.columns.get? key with
  | none =>
    by_cases hk : k = key
    · subst hk
      simp [h, hkey]
    · simp only [Option.none_or, hk, if_false]
      split
      · next heq => rw [heq]
      · rfl
  | some v => simp

theorem get?_renameColumns {k : String} (h : k ≠ "securityEngine") (h' : k ≠ "security_engine")
    (h'' : k ≠ "SmartProfiles") : (renameColumns line).columns.get? k =
      if k = "smart_profiles" then
        (line.columns.get? "SmartProfiles").or (line.columns.get? "smart_profiles")
      else line.columns.get? k := by
  unfold renameColumns
  rw [get?_renameColumn (by decide)]
  simp [get?_renameColumn, h, h', h'']

theorem setBoolean_eq_ok_iff {field : String} : setBoolean field line = .ok line' ↔
    ∃ raw flag, line.columns.get? field = some raw ∧ humanBool raw = .ok flag ∧
      line' = line.set field (.bool flag) := by
  simp only [setBoolean, PyError.bind_eq_ok, SourceRecord.getItem_eq_ok_iff]
  constructor
  · intro h
    obtain ⟨raw, hraw, flag, hflag, hline⟩ := h
    cases hline
    exact ⟨raw, flag, hraw, hflag, rfl⟩
  · intro h
    obtain ⟨raw, flag, hraw, hflag, rfl⟩ := h
    exact ⟨raw, hraw, flag, hflag, rfl⟩

theorem exists_convertPort_iff {raw : PyVal} :
    (∃ port, convertPort raw = .ok port) ↔ raw.truthy = false ∨ ∃ n, raw.toInt = .ok n := by
  unfold convertPort
  cases raw.truthy <;> simp

theorem exists_convertWalkInterval_iff {raw : PyVal} :
    (∃ interval, convertWalkInterval raw = .ok interval) ↔ ∃ n, raw.toInt = .ok n := by
  unfold convertWalkInterval
  cases raw.toInt <;> simp [bind, Except.bind, pure, Except.pure]

theorem exists_convertMaxOid_iff {raw : PyVal} : (∃ maxOid, convertMaxOid raw = .ok maxOid) ↔
    raw.truthy = false ∨ raw.isBlank ∨ ∃ n, raw.toInt = .ok n := by
  unfold convertMaxOid
  cases raw.truthy <;> cases raw.isBlank <;> cases raw.toInt <;> simp [Except.map]

theorem get?_set {key k : String} {v : PyVal} :
    (line.set key v).columns.get? k = if k = key then some v else line.columns.get? k :=
  Dict.get?_insert line.columns key k v

theorem isComment_eq_ok_iff {comment : Bool} : isComment line = .ok comment ↔
    ∃ address, line.columns.get? "address" = some (.str address) ∧
      Text.startsWith address "#" = comment := by
  simp only [isComment, PyError.bind_eq_ok, SourceRecord.getItem_eq_ok_iff]
  constructor
  · intro h
    obtain ⟨v, hv, hcomment⟩ := h
    cases v <;> cases hcomment
    exact ⟨_, hv, rfl⟩
  · intro h
    obtain ⟨address, haddress, rfl⟩ := h
    exact ⟨_, haddress, rfl⟩

/-- What a line becomes. -/
theorem convertLine_eq_ok_iff : convertLine line = .ok line' ↔
    ∃ delete smartProfiles port walkInterval maxOid,
      (∃ raw, line.columns.get? "delete" = some raw ∧ humanBool raw = .ok delete) ∧
      (∃ raw, (line.columns.get? "SmartProfiles").or (line.columns.get? "smart_profiles") =
        some raw ∧ humanBool raw = .ok smartProfiles) ∧
      convertPort (line.columns.getD "port" (.int 161)) = .ok port ∧
      (∃ raw, line.columns.get? "walk_interval" = some raw ∧
        convertWalkInterval raw = .ok walkInterval) ∧
      convertMaxOid (line.get "max_oid_to_process") = .ok maxOid ∧
      line' = (((((renameColumns line).set "delete" (.bool delete)).set "smart_profiles"
        (.bool smartProfiles)).set "max_oid_to_process" maxOid).set "port" (.int port)).set
        "walk_interval" (.int walkInterval) := by
  -- what is written to some columns leaves the others as they were
  have hrename : ∀ k, k ≠ "securityEngine" → k ≠ "security_engine" → k ≠ "SmartProfiles" →
      k ≠ "delete" → k ≠ "smart_profiles" → ∀ delete smartProfiles : Bool,
      (((renameColumns line).set "delete" (.bool delete)).set "smart_profiles"
        (.bool smartProfiles)).columns.get? k = line.columns.get? k := by
    intro k h₁ h₂ h₃ h₄ h₅ delete smartProfiles
    rw [get?_set, get?_set, get?_renameColumns h₁ h₂ h₃]
    simp [h₄, h₅]
  simp only [convertLine, PyError.bind_eq_ok, setBoolean_eq_ok_iff,
    SourceRecord.getItem_eq_ok_iff, SourceRecord.get, Dict.getD]
  constructor
  · intro h
    obtain ⟨_, ⟨raw, delete, hraw, hdelete, rfl⟩, _,
      ⟨raw', smartProfiles, hraw', hsmart, rfl⟩, port, hport, raw'', hraw'', walkInterval, hwalk,
      maxOid, hmax, hline⟩ := h
    rw [hrename _ (by decide) (by decide) (by decide) (by decide) (by decide)] at hport hraw'' hmax
    rw [get?_renameColumns (by decide) (by decide) (by decide)] at hraw
    rw [get?_set, if_neg (by decide), get?_renameColumns (by decide) (by decide) (by decide)]
      at hraw'
    cases hline
    exact ⟨delete, smartProfiles, port, walkInterval, maxOid, ⟨raw, hraw, hdelete⟩,
      ⟨raw', hraw', hsmart⟩, hport, ⟨raw'', hraw'', hwalk⟩, hmax, rfl⟩
  · intro h
    obtain ⟨delete, smartProfiles, port, walkInterval, maxOid, ⟨raw, hraw, hdelete⟩,
      ⟨raw', hraw', hsmart⟩, hport, ⟨raw'', hraw'', hwalk⟩, hmax, rfl⟩ := h
    refine ⟨_, ⟨raw, delete, ?_, hdelete, rfl⟩, _, ⟨raw', smartProfiles, ?_, hsmart, rfl⟩, port, ?_,
      raw'', ?_, walkInterval, hwalk, maxOid, ?_, rfl⟩
    · rw [get?_renameColumns (by decide) (by decide) (by decide)]
      exact hraw
    · rw [get?_set, if_neg (by decide), get?_renameColumns (by decide) (by decide) (by decide)]
      exact hraw'
    all_goals rw [hrename _ (by decide) (by decide) (by decide) (by decide) (by decide)]; assumption

/-- A line that is converted keeps its address. -/
theorem get?_address_of_convertLine (h : convertLine line = .ok line') :
    line'.columns.get? "address" = line.columns.get? "address" := by
  obtain ⟨_, _, _, _, _, -, -, -, -, -, rfl⟩ := convertLine_eq_ok_iff.mp h
  simp [get?_set, get?_renameColumns]

/-- **A line is converted exactly when its columns can be.** -/
theorem exists_convertLine_iff :
    (∃ line', convertLine line = .ok line' ∧ ∃ comment, isComment line' = .ok comment) ↔
      Convertible line := by
  constructor
  · intro h
    obtain ⟨line', hline', comment, hcomment⟩ := h
    obtain ⟨address, haddress, -⟩ := isComment_eq_ok_iff.mp hcomment
    rw [get?_address_of_convertLine hline'] at haddress
    obtain ⟨delete, smartProfiles, port, interval, maxOid, ⟨raw, hraw, hdelete⟩,
      ⟨raw', hraw', hsmart⟩, hport, ⟨raw'', hraw'', hwalk⟩, hmax, -⟩ :=
      convertLine_eq_ok_iff.mp hline'
    obtain ⟨n, hn⟩ := exists_convertWalkInterval_iff.mp ⟨interval, hwalk⟩
    exact {
      delete := ⟨raw, delete, hraw, hdelete⟩
      smartProfiles := ⟨raw', smartProfiles, hraw', hsmart⟩
      port := exists_convertPort_iff.mp ⟨port, hport⟩
      walkInterval := ⟨raw'', n, hraw'', hn⟩
      maxOid := exists_convertMaxOid_iff.mp ⟨maxOid, hmax⟩
      address := ⟨address, haddress⟩ }
  · intro h
    obtain ⟨raw, delete, hraw, hdelete⟩ := h.delete
    obtain ⟨raw', smartProfiles, hraw', hsmart⟩ := h.smartProfiles
    obtain ⟨port, hport⟩ := exists_convertPort_iff.mpr h.port
    obtain ⟨raw'', n, hraw'', hn⟩ := h.walkInterval
    obtain ⟨interval, hwalk⟩ := exists_convertWalkInterval_iff.mpr ⟨n, hn⟩
    obtain ⟨maxOid, hmax⟩ := exists_convertMaxOid_iff.mpr h.maxOid
    obtain ⟨address, haddress⟩ := h.address
    have hline := convertLine_eq_ok_iff.mpr ⟨delete, smartProfiles, port, interval, maxOid,
      ⟨raw, hraw, hdelete⟩, ⟨raw', hraw', hsmart⟩, hport, ⟨raw'', hraw'', hwalk⟩, hmax, rfl⟩
    refine ⟨_, hline, _, isComment_eq_ok_iff.mpr ⟨address, ?_, rfl⟩⟩
    rw [get?_address_of_convertLine hline]
    exact haddress

/-- **The conversion gets through exactly when every line can be converted.** -/
theorem exists_convertInventory_iff {lines : List SourceRecord} :
    (∃ rows, convertInventory lines = .ok rows) ↔ ∀ line ∈ lines, Convertible line := by
  induction lines with
  | nil => simp [convertInventory]
  | cons line lines ih =>
    rw [List.forall_mem_cons, ← ih, ← exists_convertLine_iff]
    simp only [convertInventory, PyError.bind_eq_ok]
    constructor
    · intro h
      obtain ⟨rows, line', hline', comment, hcomment, rest, hrest, -⟩ := h
      exact ⟨⟨line', hline', comment, hcomment⟩, rest, hrest⟩
    · intro h
      obtain ⟨⟨line', hline', comment, hcomment⟩, rest, hrest⟩ := h
      exact ⟨_, line', hline', comment, hcomment, rest, hrest, rfl⟩

/-- Something is left to insert exactly when a line is not commented out. -/
theorem ne_nil_of_convertInventory {lines rows : List SourceRecord}
    (h : convertInventory lines = .ok rows) : rows ≠ [] ↔ ∃ line ∈ lines, Listed line := by
  induction lines generalizing rows with
  | nil =>
    cases h
    simp
  | cons line lines ih =>
    simp only [convertInventory, PyError.bind_eq_ok] at h
    obtain ⟨line', hline', comment, hcomment, rest, hrest, hrows⟩ := h
    obtain ⟨address, haddress, hstarts⟩ := isComment_eq_ok_iff.mp hcomment
    rw [get?_address_of_convertLine hline'] at haddress
    have hlisted : Listed line ↔ comment = false := by
      simp [Listed, haddress, hstarts]
    rw [List.exists_mem_cons_iff, hlisted, ← ih hrest]
    cases comment <;> cases hrows <;> simp

end Conversion

/-! ### What the copy does -/

variable {db : UiDatabase α} {load : UiLoad α}

theorem insertMany_ok_iff {β : Type} (fails : Option ℕ) (docs collection : List β) :
    (insertMany fails docs collection).2 = .ok () ↔ docs ≠ [] ∧ fails = none := by
  unfold insertMany
  by_cases hdocs : docs = []
  · simp [hdocs]
  · cases fails <;> simp [hdocs]

theorem insertMany_none {β : Type} {docs : List β} (hdocs : docs ≠ []) (collection : List β) :
    insertMany none docs collection = (collection ++ docs, .ok ()) := by
  simp [insertMany, hdocs]

/-- A step after which the flag is as it was. -/
def KeepsFlag (step : UiStep α) : Prop := ∀ db, (step db).1.usedUi = db.usedUi

theorem KeepsFlag.andThen {first second : UiStep α} (hfirst : KeepsFlag first)
    (hsecond : KeepsFlag second) : KeepsFlag (andThen first second) := by
  intro db
  unfold UiMigration.andThen
  have hdb := hfirst db
  rcases h : first db with ⟨db', result⟩
  rw [h] at hdb
  cases result with
  | error err => exact hdb
  | ok u => exact (hsecond db').trans hdb

theorem keepsFlag_assignInventoryValues (load : UiLoad α) :
    KeepsFlag (assignInventoryValues load) := by
  intro db
  unfold assignInventoryValues
  split
  · rfl
  · split <;> rfl

theorem keepsFlag_insertGroups (load : UiLoad α) (groups : List (String × α)) :
    KeepsFlag (insertGroups load groups) := by
  intro db
  unfold insertGroups
  split <;> rfl

theorem keepsFlag_insertProfiles (load : UiLoad α) (profiles : List (String × α)) :
    KeepsFlag (insertProfiles load profiles) := by
  intro db
  unfold insertProfiles
  split <;> rfl

theorem keepsFlag_addGroupsAndProfiles (load : UiLoad α) :
    KeepsFlag (addGroupsAndProfiles load) := by
  intro db
  unfold addGroupsAndProfiles
  split
  · rfl
  · exact (keepsFlag_insertGroups load _).andThen (keepsFlag_insertProfiles load _) db

/-- The copy never touches the flag. -/
theorem keepsFlag_copy (load : UiLoad α) :
    KeepsFlag (andThen (assignInventoryValues load) (addGroupsAndProfiles load)) :=
  (keepsFlag_assignInventoryValues load).andThen (keepsFlag_addGroupsAndProfiles load)

theorem andThen_ok_iff {first second : UiStep α} :
    (andThen first second db).2 = .ok () ↔
      (first db).2 = .ok () ∧ (second (first db).1).2 = .ok () := by
  unfold andThen
  rcases first db with ⟨db', result⟩
  cases result <;> simp

theorem assignInventoryValues_ok_iff : (assignInventoryValues load db).2 = .ok () ↔
    ∃ lines, load.inventory = some lines ∧ (∀ line ∈ lines, Convertible line) ∧
      (∃ line ∈ lines, Listed line) ∧ load.fails .insertInventory = none := by
  unfold assignInventoryValues
  cases load.inventory with
  | none => simp
  | some lines =>
    simp only [Option.some.injEq, exists_eq_left', ← exists_convertInventory_iff]
    cases hrows : convertInventory lines with
    | error err => simp
    | ok rows => simp [insertMany_ok_iff, ← ne_nil_of_convertInventory hrows]

theorem insertGroups_ok_iff {groups : List (String × α)} :
    (insertGroups load groups db).2 = .ok () ↔ groups = [] ∨ load.fails .insertGroups = none := by
  unfold insertGroups
  by_cases hgroups : groups = [] <;> simp [hgroups, insertMany_ok_iff]

theorem insertProfiles_ok_iff {profiles : List (String × α)} :
    (insertProfiles load profiles db).2 = .ok () ↔
      profiles = [] ∨ load.fails .insertProfiles = none := by
  unfold insertProfiles
  by_cases hprofiles : profiles = [] <;> simp [hprofiles, insertMany_ok_iff]

theorem addGroupsAndProfiles_ok_iff : (addGroupsAndProfiles load db).2 = .ok () ↔
    ∃ groups profiles, readConfigRuntime load.config = .ok (groups, profiles) ∧
      (groups = [] ∨ load.fails .insertGroups = none) ∧
      (profiles = [] ∨ load.fails .insertProfiles = none) := by
  unfold addGroupsAndProfiles
  rcases hread : readConfigRuntime load.config with err | ⟨groups, profiles⟩
  · simp
  · simp [andThen_ok_iff, insertGroups_ok_iff, insertProfiles_ok_iff]

/-- The copy gets through exactly when nothing in it fails. -/
theorem copy_ok_iff :
    (andThen (assignInventoryValues load) (addGroupsAndProfiles load) db).2 = .ok () ↔
      CopySucceeds load := by
  rw [andThen_ok_iff, assignInventoryValues_ok_iff, addGroupsAndProfiles_ok_iff]
  exact ⟨fun ⟨hinventory, hconfig⟩ => ⟨hinventory, hconfig⟩, fun h => ⟨h.inventory, h.config⟩⟩

/-- A copy that gets through is whole. -/
theorem wholeCopy_copy (h : CopySucceeds load) :
    WholeCopy load db
      (andThen (assignInventoryValues load) (addGroupsAndProfiles load) db).1 := by
  obtain ⟨⟨lines, hlines, hconvertible, hlisted, hfails⟩, groups, profiles, hread, hgroups,
    hprofiles⟩ := h
  obtain ⟨rows, hrows⟩ := exists_convertInventory_iff.mpr hconvertible
  have hne := (ne_nil_of_convertInventory hrows).mpr hlisted
  have hassign : assignInventoryValues load db =
      ({ db with inventoryUi := db.inventoryUi ++ rows }, .ok ()) := by
    simp [assignInventoryValues, hlines, hrows, hfails, insertMany_none hne]
  -- an empty list of documents is not inserted at all
  have hinsert : ∀ db : UiDatabase α, insertGroups load groups db =
      ({ db with groupsUi := db.groupsUi ++ groups }, .ok ()) := by
    intro db
    unfold insertGroups
    by_cases hnil : groups = []
    · simp [hnil]
    · simp [hnil, hgroups.resolve_left hnil, insertMany_none hnil]
  have hinsert' : ∀ db : UiDatabase α, insertProfiles load profiles db =
      ({ db with profilesUi := db.profilesUi ++ profiles }, .ok ()) := by
    intro db
    unfold insertProfiles
    by_cases hnil : profiles = []
    · simp [hnil]
    · simp [hnil, hprofiles.resolve_left hnil, insertMany_none hnil]
  refine ⟨lines, rows, groups, profiles, hlines, hrows, hread, ?_⟩
  simp [andThen, hassign, addGroupsAndProfiles, hread, hinsert, hinsert']

/-! ### One load -/

/-- A load that has nothing to migrate leaves the flag and the collections alone. -/
theorem configureUiDatabase_of_usedUi {later : UiLoad α} (hlater : Undisturbed later)
    (hused : db.usedUi = true) : configureUiDatabase later db = (db, .ok ()) := by
  simp [configureUiDatabase, andThen, operate, hlater.findFlag, hlater.configFromMongo, hused]

/-- A load that begins a migration marks it as done, and then copies. -/
theorem configureUiDatabase_attempt (hused : db.usedUi = false)
    (hmongo : load.configFromMongo = true) (hfind : load.fails .findFlag = none)
    (hwrite : load.fails .writeFlag = none) :
    configureUiDatabase load db =
      andThen (assignInventoryValues load) (addGroupsAndProfiles load)
        { db with usedUi := true } := by
  simp [configureUiDatabase, migrate, andThen, operate, hfind, hwrite, hmongo, hused]

/-- A line with nothing wrong in it. -/
def plainLine : SourceRecord :=
  { columns := Dict.ofList [("address", .str "10.0.0.1"), ("walk_interval", .str "1800"),
      ("delete", .str "false"), ("smart_profiles", .str "false")] }

/-- A load in which nothing fails. -/
def plainLoad : UiLoad α where
  configFromMongo := true
  inventory := some [plainLine]
  config := .missing
  fails := fun _ => none

theorem convertible_plainLine : Convertible plainLine where
  delete := ⟨_, false, rfl, by decide +kernel⟩
  smartProfiles := ⟨_, false, rfl, by decide +kernel⟩
  port := .inr ⟨161, rfl⟩
  walkInterval := ⟨_, 1800, rfl, by decide +kernel⟩
  maxOid := .inl rfl
  address := ⟨_, rfl⟩

theorem listed_plainLine : Listed plainLine := ⟨_, rfl, by decide +kernel⟩

theorem undisturbed_plainLoad : Undisturbed (plainLoad : UiLoad α) where
  configFromMongo := rfl
  findFlag := rfl
  writeFlag := rfl
  copy := ⟨⟨_, rfl, List.forall_mem_singleton.mpr convertible_plainLine,
    ⟨_, List.mem_singleton_self _, listed_plainLine⟩, rfl⟩, [], [], rfl, .inl rfl, .inl rfl⟩

/-- Once the flag is set no load copies anything. -/
theorem not_wholeCopy_of_usedUi (hused : db.usedUi = true) :
    ¬ WholeCopy plainLoad db (configureUiDatabase plainLoad db).1 := by
  intro hcopy
  obtain ⟨lines, rows, groups, profiles, hlines, hrows, -, hinventory, -, -⟩ := hcopy
  rw [configureUiDatabase_of_usedUi undisturbed_plainLoad hused, List.self_eq_append_right]
    at hinventory
  cases hlines
  exact (ne_nil_of_convertInventory hrows).mpr ⟨_, List.mem_singleton_self _, listed_plainLine⟩
    hinventory

/-- A load that does not come to mark the migration as done leaves the database alone. -/
theorem configureUiDatabase_of_idle (hused : db.usedUi = false)
    (hidle : load.configFromMongo = false ∨ load.fails .findFlag ≠ none ∨
      load.fails .writeFlag ≠ none) : (configureUiDatabase load db).1 = db := by
  unfold configureUiDatabase andThen operate
  cases hfind : load.fails .findFlag with
  | some written => rfl
  | none =>
    rcases hidle with hmongo | hfails | hfails
    · simp [hmongo, hused]
    · exact absurd hfind hfails
    · obtain ⟨written, hwrite⟩ := Option.ne_none_iff_exists'.mp hfails
      cases hmongo : load.configFromMongo <;>
        simp [hused, migrate, andThen, operate, hwrite]

/-- An undisturbed load copies everything, if the flag is not set. -/
theorem wholeCopy_of_undisturbed {later : UiLoad α} (hlater : Undisturbed later)
    (hused : db.usedUi = false) : WholeCopy later db (configureUiDatabase later db).1 := by
  rw [configureUiDatabase_attempt hused hlater.configFromMongo hlater.findFlag hlater.writeFlag]
  exact wholeCopy_copy hlater.copy

/-- **A load is failure-atomic exactly when it is migratable.** -/
theorem failureAtomic_iff : FailureAtomic db load ↔ Migratable db load := by
  constructor
  · intro h
    by_contra hnot
    simp only [Migratable, not_or, not_not, Bool.not_eq_true, Bool.not_eq_false] at hnot
    obtain ⟨hused, hmongo, hfind, hwrite, hcopy⟩ := hnot
    have hattempt := configureUiDatabase_attempt hused hmongo hfind hwrite
    -- the copy fails under a flag that stays, and no later load makes up for it
    have hflag : (configureUiDatabase load db).1.usedUi = true := by
      rw [hattempt]
      exact keepsFlag_copy load _
    apply not_wholeCopy_of_usedUi hflag
    apply h.retried hused hmongo _ _ undisturbed_plainLoad
    rw [hattempt]
    cases hresult : (andThen (assignInventoryValues load) (addGroupsAndProfiles load)
        { db with usedUi := true }).2 with
    | error err => exact ⟨err, rfl⟩
    | ok u => exact absurd (copy_ok_iff.mp hresult) hcopy
  · intro h
    by_cases hused : db.usedUi = true
    · exact ⟨fun h => by simp [hused] at h, fun h => by simp [hused] at h⟩
    rw [Bool.not_eq_true] at hused
    by_cases hidle : load.configFromMongo = false ∨ load.fails .findFlag ≠ none ∨
        load.fails .writeFlag ≠ none
    · -- nothing was done, and whatever comes later begins from the same database
      have hdb := configureUiDatabase_of_idle hused hidle
      refine ⟨?_, ?_⟩
      · intro _ hmarked
        rw [hdb, hused] at hmarked
        cases hmarked
      · intro _ _ _ later hlater
        rw [hdb]
        exact wholeCopy_of_undisturbed hlater hused
    · -- the flag is written, so the copy has to get through, and does
      simp only [not_or, not_not, Bool.not_eq_false] at hidle
      obtain ⟨hmongo, hfind, hwrite⟩ := hidle
      have hcopy : CopySucceeds load := by
        simpa [Migratable, hused, hmongo, hfind, hwrite] using h
      have hattempt := configureUiDatabase_attempt hused hmongo hfind hwrite
      refine ⟨?_, ?_⟩
      · intro _ _
        rw [hattempt]
        exact wholeCopy_copy hcopy
      · intro _ _ herror
        obtain ⟨err, herr⟩ := herror
        rw [hattempt, copy_ok_iff.mpr hcopy] at herr
        cases herr

/-! ### Every sequence of loads -/

/-- **Along every sequence of loads migration is failure-atomic exactly when each load is
migratable.** -/
theorem failureAtomic_along_iff (db : UiDatabase α) (loads : List (UiLoad α)) :
    Run.Along (fun db load => (configureUiDatabase load db).1) FailureAtomic db loads ↔
      Run.Along (fun db load => (configureUiDatabase load db).1) Migratable db loads := by
  have hiff : ∀ (db : UiDatabase α) (load : UiLoad α), True →
      (FailureAtomic db load ↔ Migratable db load) := fun _ _ _ => failureAtomic_iff
  exact Run.along_iff hiff (fun _ _ _ _ => trivial) trivial loads

/-- No UI yet. -/
def noUi : UiDatabase String :=
  { usedUi := false, inventoryUi := [], groupsUi := [], profilesUi := [] }

/-- A load with nothing but a line that leaves `walk_interval` blank. -/
def blankInterval : UiLoad String :=
  { plainLoad with inventory := some [plainLine.set "walk_interval" (.str "")] }

/-- The blank interval is no number: the flag is set, and nothing was copied. -/
theorem failureAtomic_fails :
    ¬ Run.Along (fun db load => (configureUiDatabase load db).1) FailureAtomic noUi
      [blankInterval] := by
  intro h
  have hmarked : (configureUiDatabase blankInterval noUi).1.usedUi = true := by decide +kernel
  obtain ⟨lines, rows, -, -, hlines, hrows, -⟩ := h.1.marked rfl hmarked
  cases hlines
  have hfails : (convertInventory [plainLine.set "walk_interval" (.str "")]).isOk = false := by
    decide +kernel
  simp [hrows, Except.isOk, Except.toBool] at hfails

end UiMigration

end Sc4snmp
