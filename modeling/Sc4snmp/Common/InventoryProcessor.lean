import Sc4snmp.Common.InventoryRecordManager

/-!
# The inventory processor

`InventoryProcessor` of `common/inventory_processor.py`: a line of the inventory is a
comment, a host, or the name of a group; the line of a group becomes one line for
each host of the group, and a host of the inventory that a group has as well is left
out.  The groups are those of the collection, which only holds what its schema
accepts.

## Main definitions

* `GroupObject`, `Groups` — a host of a group, the groups collection.
* `returnElement` — the lookup of a group by name.
* `processLine`, `getAllHosts` — the expansion.
* `getGroupsKeys`, `returnHostsFromDeletedGroups` — the hosts that left the groups.
-/

namespace Sc4snmp

/-- A host of a group, as `group_schema` has it. -/
structure GroupObject where
  address : String
  port : Option ℤ := none
  community : Option String := none
  secret : Option String := none
  version : Option String := none
  securityEngine : Option String := none
  maxOidToProcess : Option ℤ := none
  deriving DecidableEq, Repr

namespace GroupObject

/-- The port of a host as a value, `group_object.get("port")`. -/
def portVal (o : GroupObject) : PyVal :=
  match o.port with
  | some p => .int p
  | none => .none

/-- The keys of a host with their values. -/
def items (o : GroupObject) : List (String × PyVal) :=
  let text (key : String) (v : Option String) : List (String × PyVal) :=
    (v.map fun s => (key, PyVal.str s)).toList
  let number (key : String) (v : Option ℤ) : List (String × PyVal) :=
    (v.map fun i => (key, PyVal.int i)).toList
  [("address", .str o.address)] ++ number "port" o.port ++ text "community" o.community ++
    text "secret" o.secret ++ text "version" o.version ++
    text "security_engine" o.securityEngine ++ number "max_oid_to_process" o.maxOidToProcess

end GroupObject

/-- The groups collection, one document for each group. -/
abbrev Groups := Dict String (List GroupObject)

/-- `ALLOWED_KEYS_VALUES`. -/
def allowedKeysValues : List String :=
  ["address", "port", "community", "secret", "version", "security_engine", "securityEngine",
    "max_oid_to_process"]

/-- Whether a document has the field a dotted path names, as the database reads paths:
into the elements of a list by their index, or into any of them. -/
def fieldExists (path : String) (document : String × List GroupObject) : Bool :=
  match Text.splitOn '.' path with
  | [name] => name = document.1
  | [name, field] => name = document.1 &&
      ((List.range document.2.length).any (fun i => toString i = field) ||
        document.2.any fun o => field ∈ o.items.map Prod.fst)
  | [name, index, field] => name = document.1 &&
      (List.range document.2.length).any fun i => toString i = index &&
        (document.2[i]?.any fun o => field ∈ o.items.map Prod.fst)
  | _ => false

/-- `return_element(group_name, {"$exists": 1})`: the hosts of the first document found. -/
def returnElement (groups : Groups) (groupName : String) : Option (List GroupObject) :=
  (groups.entries.find? (fieldExists groupName)).map Prod.snd

/-! ### Expansion -/

/-- The attributes of an `InventoryProcessor`. -/
structure ProcessorState where
  inventoryRecords : List SourceRecord
  hostsFromGroups : Dict String Unit
  inventoryGroupPortMapping : Dict String PyVal
  singleHosts : List SourceRecord

namespace ProcessorState

/-- A new processor. -/
def new : ProcessorState := ⟨[], Dict.empty, Dict.empty, []⟩

end ProcessorState

/-- The line of a group for one of its hosts. -/
def hostGroupObject (source : SourceRecord) (groupName : String) (o : GroupObject) :
    SourceRecord :=
  let line := (o.items.filter fun item => item.1 ∈ allowedKeysValues).foldl
    (fun line item => line.set item.1 item.2) source
  line.set "group" (.str groupName)

/-- The loop over the hosts of a group. -/
def addGroupHosts (source : SourceRecord) (groupName : String) :
    List GroupObject → ProcessorState → Except PyError ProcessorState
  | [], st => .ok st
  | o :: hosts, st => do
    let host ← transformAddressToKey (.str o.address) o.portVal
    addGroupHosts source groupName hosts
      { st with
        hostsFromGroups := st.hostsFromGroups.insert host ()
        inventoryRecords := st.inventoryRecords ++ [hostGroupObject source groupName o] }

/-- `get_group_hosts`. -/
def getGroupHosts (groups : Groups) (source : SourceRecord) (groupName : String)
    (st : ProcessorState) : Except PyError ProcessorState :=
  -- the database takes such a name for an operator
  if Text.startsWith groupName "$" then .error .other else
  match returnElement groups groupName with
  | some hosts => do
    let port ← source.getItem "port"
    let groupPort := if port.truthy then port else .int 161
    let mapping := st.inventoryGroupPortMapping.insert groupName groupPort
    addGroupHosts source groupName hosts { st with inventoryGroupPortMapping := mapping }
  | none => .ok { st with singleHosts := st.singleHosts ++ [source] }

/-- `process_line`. -/
def processLine (groups : Groups) (st : ProcessorState) (source : SourceRecord) :
    Except PyError ProcessorState := do
  match ← source.getItem "address" with
  | .str address =>
    match address.toList with
    | [] => .error .indexError
    | '#' :: _ => .ok st
    | c :: _ =>
      if Text.isDigit c then .ok { st with singleHosts := st.singleHosts ++ [source] }
      else getGroupHosts groups source address st
  | _ => .error .attributeError

/-- The key a single host is looked up by. -/
def singleHostKey (source : SourceRecord) : Except PyError String := do
  let address ← source.getItem "address"
  transformAddressToKey address (source.get "port")

/-- The loop over the single hosts: those no group has. -/
def placeSingleHosts (hostsFromGroups : Dict String Unit) :
    List SourceRecord → Except PyError (List SourceRecord)
  | [] => .ok []
  | source :: hosts => do
    let host ← singleHostKey source
    let rest ← placeSingleHosts hostsFromGroups hosts
    return if host ∈ hostsFromGroups then rest else source :: rest

/-- `get_all_hosts`, over the lines of the inventory. -/
def getAllHosts (groups : Groups) (lines : List SourceRecord) :
    Except PyError (List SourceRecord × Dict String PyVal) := do
  let st ← lines.foldlM (processLine groups) ProcessorState.new
  let single ← placeSingleHosts st.hostsFromGroups st.singleHosts
  return (st.inventoryRecords ++ single, st.inventoryGroupPortMapping)

/-! ### Hosts that left the groups -/

/-- `get_groups_keys`. -/
def getGroupsKeys (hosts : List GroupObject) (groupName : String)
    (inventoryGroupPortMapping : Dict String PyVal) : Except PyError (List String) :=
  let groupPort := inventoryGroupPortMapping.getD groupName (.int 161)
  hosts.mapM fun o => transformAddressToKey (.str o.address)
    (match o.port with
      | some p => .int p
      | none => groupPort)

/-- `return_hosts_from_deleted_groups`. -/
def returnHostsFromDeletedGroups (previousGroups newGroups : Groups)
    (inventoryGroupPortMapping : Dict String PyVal) : Except PyError (List String) := do
  let deleted ← previousGroups.entries.mapM fun (groupName, hosts) => do
    let previousKeys ← getGroupsKeys hosts groupName inventoryGroupPortMapping
    match newGroups.get? groupName with
    | none => return previousKeys
    | some newHosts =>
      let newKeys ← getGroupsKeys newHosts groupName inventoryGroupPortMapping
      return previousKeys.dedup.filter (· ∉ newKeys)
  return deleted.flatten

end Sc4snmp
