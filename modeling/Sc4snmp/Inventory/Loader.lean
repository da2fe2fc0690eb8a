import Sc4snmp.Common.InventoryProcessor

/-!
# The inventory loader

`manage_inventory_records` of `inventory/loader.py`: the hosts that left their groups
are deleted, then every line of the inventory is turned into a record and stored or
deleted.  Whatever a line raises is caught, but the handler reads the columns of the
line again, and what it raises leaves the loop.

## Main definitions

* `LoaderEnv`, `LoaderState` — the settings and what the loader writes to.
* `processRecord` — the body of the `try`; `reportLine` — the handler.
* `manageLines`, `manageInventoryRecords` — the loops.
* `loadInventory` — what `load` does with an inventory.
-/

namespace Sc4snmp

/-- The settings of the loader and the parts of the world it calls into. -/
structure LoaderEnv where
  lookup : AddressLookup
  deleteSchedules : DeleteSchedulesByTarget
  /-- `CONFIG_FROM_MONGO`. -/
  configFromMongo : Bool
  config : LoadConfig
  expiryTimeChanged : Bool

/-- The collections of the loader; those of the user interface hold inventory lines. -/
structure LoaderState where
  db : InventoryDb
  inventoryUi : List SourceRecord

/-- `delete_one` on the lines of the user interface. -/
def deleteOneLine (address port : PyVal) (lines : List SourceRecord) : List SourceRecord :=
  lines.eraseP fun line => line.get "address" = address && line.get "port" = port

/-- `delete_from_ui_inventory`. -/
def deleteFromUiInventory (env : LoaderEnv) (ir : InventoryRecord) (lines : List SourceRecord) :
    List SourceRecord :=
  if env.configFromMongo then
    match ir.group with
    | none => deleteOneLine ir.addressVal (.int ir.port) lines
    | some group => lines.eraseP fun line => line.get "address" = .str group
  else lines

/-- The body of the `try`, for one line. -/
def processRecord (env : LoaderEnv) (st : LoaderState) (source : SourceRecord) :
    LoaderState × Except PyError Unit :=
  match InventoryRecord.ofSource env.lookup source with
  | .error err => (st, .error err)
  | .ok ir =>
    if ir.delete = some true then
      match InventoryRecordManager.delete env.deleteSchedules st.db ir.target with
      | (db, .error err) => ({ st with db }, .error err)
      | (db, .ok ()) =>
        ({ db, inventoryUi := deleteFromUiInventory env ir st.inventoryUi }, .ok ())
    else
      let (db, result) :=
        InventoryRecordManager.update env.config env.expiryTimeChanged st.db ir source
      ({ st with db }, result)

/-- The beginning of the handler: a line marked to be deleted leaves the user
interface although it failed. -/
def deleteReported (env : LoaderEnv) (source : SourceRecord) (lines : List SourceRecord) :
    Except PyError (List SourceRecord) :=
  if env.configFromMongo then do
    let delete ← source.getItem "delete"
    if delete.truthy then
      let address ← source.getItem "address"
      let port ← source.getItem "port"
      return deleteOneLine address port lines
    else return lines
  else .ok lines

/-- The handler: the line is logged under its key. -/
def reportLine (env : LoaderEnv) (st : LoaderState) (source : SourceRecord) :
    Except PyError LoaderState := do
  let inventoryUi ← deleteReported env source st.inventoryUi
  let address ← source.getItem "address"
  let port ← source.getItem "port"
  let _ ← transformAddressToKey address port
  return { st with inventoryUi }

/-- The loop over the lines, with whether there were errors. -/
def manageLines (env : LoaderEnv) :
    List SourceRecord → Bool → LoaderState → Except PyError (LoaderState × Bool)
  | [], inventoryErrors, st => .ok (st, inventoryErrors)
  | source :: lines, inventoryErrors, st =>
    match processRecord env st source with
    | (st', .ok ()) => manageLines env lines inventoryErrors st'
    | (st', .error _) => do
      let st'' ← reportLine env st' source
      manageLines env lines true st''

/-- The loop over the hosts that left their groups. -/
def deleteHosts (env : LoaderEnv) : List String → LoaderState → Except PyError LoaderState
  | [], st => .ok st
  | host :: hosts, st =>
    match InventoryRecordManager.delete env.deleteSchedules st.db host with
    | (db, .ok ()) => deleteHosts env hosts { st with db }
    | (_, .error err) => .error err

/-- `manage_inventory_records`. -/
def manageInventoryRecords (env : LoaderEnv) (hostsFromGroupsToDelete : List String)
    (inventoryErrors : Bool) (inventoryLines : List SourceRecord) (st : LoaderState) :
    Except PyError (LoaderState × Bool) := do
  let st' ← deleteHosts env hostsFromGroupsToDelete st
  manageLines env inventoryLines inventoryErrors st'

/-- `load`, from where the collections have been updated and the expiry times compared:
the groups it has read before the update and after it, and the lines of the inventory. -/
def loadInventory (env : LoaderEnv) (previousGroups newGroups : Groups)
    (lines : List SourceRecord) (st : LoaderState) : Except PyError (LoaderState × Bool) := do
  let (inventoryLines, inventoryGroupPortMapping) ← getAllHosts newGroups lines
  let hostsFromGroupsToDelete ←
    returnHostsFromDeletedGroups previousGroups newGroups inventoryGroupPortMapping
  manageInventoryRecords env hostsFromGroupsToDelete false inventoryLines st

end Sc4snmp
