import Mathlib.Data.PNat.Basic
import Sc4snmp.Lib.Program
import Sc4snmp.Snmp.ProcessSnmpData

/-!
# Enrichment

`enrich` of `enrich/tasks.py`, as a program of operations on the database: each `find`,
`update_one` and write of a bulk is one operation, and other tasks may act in between.

What a field or a metric holds is a type here.  Of a metric the code reads the number of
`SNMPv2-MIB.sysUpTime`; of a field, whether it differs from the one that is stored, and it
sets its `name`, which is the key it has in its group.  The times of the log are left out.

## Main definitions

* `EnrichEnv` — the setting, and what Mongo and the values are like.
* `AttributesDoc`, `EnrichDb`, `EnrichOp`, `EnrichOp.apply` — the database and its operations.
* `checkRestart`, `setAttributeUpdates`, `updateCollections`, `enrichMetricWithFieldsFromDb`,
  `enrich` — the source.
-/

namespace Sc4snmp

namespace Enrich

/-! ### The data -/

/-- A field of a document, with its name. -/
structure Stored (β : Type) where
  name : String
  content : β
  deriving DecidableEq

/-- A document of the attributes collection. -/
structure AttributesDoc (β : Type) where
  address : String
  groupKeyHash : String
  indexes : Option (List IndexValue)
  id : Option String
  fields : Dict String (Stored β)

/-- A document of the targets collection. -/
structure TargetDoc (β γ : Type) where
  sysUpTime : Option γ
  state : Dict String (Stored β)

/-- The collections, and the addresses `trigger_walk_after_restart` is called for. -/
structure EnrichDb (β γ : Type) where
  targets : Dict String (TargetDoc β γ)
  attributes : List (AttributesDoc β)
  restarts : List String

/-- A group of a result. -/
structure ResultGroup (β γ : Type) where
  fields : Dict String β
  metrics : Dict String γ
  indexes : List IndexValue

/-- The work `enrich` is given. -/
structure EnrichCall (β γ : Type) where
  address : String
  result : Dict String (ResultGroup β γ)

/-- What `enrich` depends on. -/
structure EnrichEnv (β γ : Type) where
  /-- `cv != field_value`, of two fields of one name. -/
  differs : β → β → Bool
  /-- `int(metric["value"])`. -/
  uptime : γ → Except PyError ℤ
  /-- `MONGO_UPDATE_BATCH_THRESHOLD`. -/
  threshold : ℕ+
  /-- What a stage of a pipeline stores in a document for a field it is given. -/
  evaluate : AttributesDoc β → Stored β → Stored β
  evaluateState : TargetDoc β γ → Stored β → Stored β
  /-- The order in which the writes of a bulk are made. -/
  bulkOrder : List (String × List (String × Stored β)) → List (String × List (String × Stored β))
  bulkOrder_perm : ∀ writes, (bulkOrder writes).Perm writes

variable {β γ : Type}

/-- `SYS_UP_TIME`. -/
def sysUpTimeField : String := "SNMPv2-MIB.sysUpTime"

/-- `TRACKED_F`. -/
def trackedFields : List String :=
  ["SNMPv2-MIB.sysDescr", "SNMPv2-MIB.sysObjectID", "SNMPv2-MIB.sysContact", "SNMPv2-MIB.sysName",
    "SNMPv2-MIB.sysLocation"]

/-- `key.replace(".", "|")`. -/
def keyHash (key : String) : String := Text.replaceChar '.' '|' key

/-- `cv != field_value`. -/
def Stored.differs (env : EnrichEnv β γ) (cv field : Stored β) : Bool :=
  cv.name ≠ field.name || env.differs cv.content field.content

/-! ### The operations of the database -/

/-- The first element a filter selects is changed. -/
def updateFirst {δ : Type} (p : δ → Bool) (f : δ → δ) : List δ → List δ
  | [] => []
  | x :: xs => if p x then f x :: xs else x :: updateFirst p f xs

/-- The filter of an address and a group. -/
def AttributesDoc.isFor (address hash : String) (doc : AttributesDoc β) : Bool :=
  doc.address = address && doc.groupKeyHash = hash

/-- The stages of a pipeline, each `{"$set": {"fields.key": field}}`. -/
def AttributesDoc.setFields (env : EnrichEnv β γ) (doc : AttributesDoc β)
    (stages : List (String × Stored β)) : AttributesDoc β :=
  stages.foldl (fun doc e =>
    { doc with fields := doc.fields.insert e.1 (env.evaluate doc e.2) }) doc

/-- The stages of a pipeline, each `{"$set": {"state.key": field}}`. -/
def TargetDoc.setState (env : EnrichEnv β γ) (doc : TargetDoc β γ)
    (stages : List (String × Stored β)) : TargetDoc β γ :=
  stages.foldl (fun doc e => { doc with state := doc.state.insert e.1 (env.evaluateState doc e.2) })
    doc

/-- An operation on the database. -/
inductive EnrichOp (β γ : Type)
  /-- `targets_collection.find_one` -/
  | findTarget (address : String)
  /-- `targets_collection.update_one` with a new `sysUpTime`. -/
  | setUpTime (address : String) (metric : γ)
  | triggerWalk (address : String)
  /-- `attributes_collection.find_one` -/
  | findAttributes (address : String)
  /-- The `update_one` that begins a document. -/
  | initialise (address hash : String) (indexes : List IndexValue) (id : String)
  /-- An `update_one` with a pipeline. -/
  | setFields (address hash : String) (stages : List (String × Stored β)) (upsert : Bool)
  | setState (address : String) (stages : List (String × Stored β))

namespace EnrichDb

/-- The first document of a group. -/
def docOf (db : EnrichDb β γ) (address hash : String) : Option (AttributesDoc β) :=
  db.attributes.find? (AttributesDoc.isFor address hash)

/-- The document of a target, or the one an upsert begins. -/
def target (db : EnrichDb β γ) (address : String) : TargetDoc β γ :=
  db.targets.getD address ⟨none, Dict.empty⟩

/-- The document is begun, or its fields are taken away if it is there. -/
def initialise (db : EnrichDb β γ) (address hash : String) (indexes : List IndexValue)
    (id : String) : EnrichDb β γ :=
  let selects := fun doc : AttributesDoc β => doc.isFor address hash && doc.indexes = some indexes
  if db.attributes.any selects then
    { db with
      attributes := updateFirst selects
        (fun doc => { doc with id := some id, fields := Dict.empty }) db.attributes }
  else
    { db with
      attributes := db.attributes ++ [⟨address, hash, some indexes, some id, Dict.empty⟩] }

/-- The stages are applied to the first document of a group. -/
def setFields (env : EnrichEnv β γ) (db : EnrichDb β γ) (address hash : String)
    (stages : List (String × Stored β)) (upsert : Bool) : EnrichDb β γ :=
  if db.attributes.any (AttributesDoc.isFor address hash) then
    { db with
      attributes := updateFirst (AttributesDoc.isFor address hash)
        (fun doc => doc.setFields env stages) db.attributes }
  else if upsert then
    { db with
      attributes := db.attributes ++
        [AttributesDoc.setFields env ⟨address, hash, none, none, Dict.empty⟩ stages] }
  else db

end EnrichDb

/-- What an operation does to the database. -/
def EnrichOp.apply (env : EnrichEnv β γ) : EnrichOp β γ → EnrichDb β γ → EnrichDb β γ
  | findTarget _, db => db
  | setUpTime address metric, db =>
    { db with
      targets := db.targets.insert address { db.target address with sysUpTime := some metric } }
  | triggerWalk address, db => { db with restarts := db.restarts ++ [address] }
  | findAttributes _, db => db
  | initialise address hash indexes id, db => db.initialise address hash indexes id
  | setFields address hash stages upsert, db => db.setFields env address hash stages upsert
  | setState address stages, db =>
    { db with targets := db.targets.insert address ((db.target address).setState env stages) }

/-- A task that uses the database. -/
abbrev EnrichProgram (β γ α : Type) := Program (EnrichOp β γ) (EnrichDb β γ) α

open Program (done perform)

/-! ### The source -/

/-- `check_restart`, over the groups of the result. -/
def checkRestart (env : EnrichEnv β γ) (current : Option γ) (address : String) :
    List (ResultGroup β γ) → EnrichProgram β γ (Except PyError Unit)
  | [] => done (.ok ())
  | group :: groups =>
    match group.metrics.get? sysUpTimeField with
    | none => checkRestart env current address groups
    | some metric => do
      let _ ← perform (.setUpTime address metric)
      match current with
      | none => checkRestart env current address groups
      | some old =>
        match env.uptime metric, env.uptime old with
        | .ok newValue, .ok oldValue =>
          if newValue < oldValue then
            let _ ← perform (.triggerWalk address)
            checkRestart env current address groups
          else checkRestart env current address groups
        | .error err, _ => done (.error err)
        | _, .error err => done (.error err)

/-- The lists of updates that are not made yet. -/
structure Updates (β : Type) where
  /-- Of the target. -/
  updates : List (String × Stored β)
  attributeUpdates : List (String × Stored β)
  newFields : List (String × Stored β)

/-- A field goes into the lists it belongs to. -/
def Updates.add (env : EnrichEnv β γ) (current : Option (AttributesDoc β)) (field : Stored β)
    (u : Updates β) : Updates β :=
  let hash := keyHash field.name
  let u := match current.bind fun doc => doc.fields.get? hash with
    | some cv =>
      if cv.differs env field then
        { u with attributeUpdates := u.attributeUpdates ++ [(hash, field)] }
      else u
    | none => { u with newFields := u.newFields ++ [(hash, field)] }
  if field.name ∈ trackedFields then { u with updates := u.updates ++ [(hash, field)] } else u

/-- The updates of the target are made when there are enough of them. -/
def flushUpdates (env : EnrichEnv β γ) (address : String) (u : Updates β) :
    EnrichProgram β γ (Updates β) :=
  if env.threshold ≤ u.updates.length then do
    let _ ← perform (.setState address u.updates)
    return { u with updates := [] }
  else return u

/-- The updates of the attributes are made when there are enough of them. -/
def flushAttributeUpdates (env : EnrichEnv β γ) (address hash : String) (u : Updates β) :
    EnrichProgram β γ (Updates β) :=
  if env.threshold ≤ u.attributeUpdates.length then do
    let _ ← perform (.setFields address hash u.attributeUpdates true)
    return { u with attributeUpdates := [] }
  else return u

/-- `set_attribute_updates`, over the fields of a group. -/
def setAttributeUpdates (env : EnrichEnv β γ) (address hash : String)
    (current : Option (AttributesDoc β)) : List (String × β) → Updates β →
    EnrichProgram β γ (Updates β)
  | [], u => done u
  | (fieldKey, fieldValue) :: fields, u => do
    let u ← flushUpdates env address (u.add env current ⟨fieldKey, fieldValue⟩)
    let u ← flushAttributeUpdates env address hash u
    setAttributeUpdates env address hash current fields u

/-- `update_collections`. -/
def updateCollections (address hash : String) (u : Updates β) : EnrichProgram β γ Unit := do
  if u.updates ≠ [] then
    let _ ← perform (.setState address u.updates)
  if u.attributeUpdates ≠ [] then
    let _ ← perform (.setFields address hash u.attributeUpdates false)

/-- `enrich_metric_with_fields_from_db`. -/
def enrichMetricWithFieldsFromDb (group : ResultGroup β γ) (fieldsFromDb : Dict String (Stored β)) :
    ResultGroup β γ :=
  if group.metrics.entries.isEmpty then group
  else
    { group with
      fields := (fieldsFromDb.entries.map Prod.snd).foldl (fun fields persisted =>
        if persisted.name ∈ fields then fields
        else fields.insert persisted.name persisted.content) group.fields }

/-- The fields that are stored go back to the group they belong to, if it is in the result. -/
def addBackFields (result : Dict String (ResultGroup β γ)) (id : String)
    (fields : Dict String (Stored β)) : Dict String (ResultGroup β γ) :=
  match result.get? id with
  | some group => result.insert id (enrichMetricWithFieldsFromDb group fields)
  | none => result

/-- The first document of a group, if any document of the address is known. -/
def findCurrent (address hash : String) (isAny : Bool) :
    EnrichProgram β γ (Option (AttributesDoc β)) :=
  if isAny then do
    let db ← perform (.findAttributes address)
    return db.docOf address hash
  else return none

/-- The writes of the bulk, and the result. -/
abbrev LoopState (β γ : Type) :=
  List (String × List (String × Stored β)) × Dict String (ResultGroup β γ)

/-- The part of the loop of `enrich` that writes the fields of a group; it leaves those that
are new to the bulk. -/
def writeGroup (env : EnrichEnv β γ) (address : String) (isAny : Bool) (key : String)
    (group : ResultGroup β γ) :
    EnrichProgram β γ (Option (AttributesDoc β) × List (String × Stored β)) := do
  let current ← findCurrent address (keyHash key) isAny
  if current.isNone ∧ group.fields.entries ≠ [] then
    let _ ← perform (.initialise address (keyHash key) group.indexes key)
  let u ← setAttributeUpdates env address (keyHash key) current group.fields.entries ⟨[], [], []⟩
  updateCollections address (keyHash key) u
  return (current, u.newFields)

/-- The loop of `enrich` over the keys of the result. -/
def enrichGroups (env : EnrichEnv β γ) (address : String) (isAny : Bool) :
    List String → LoopState β γ → EnrichProgram β γ (Except PyError (LoopState β γ))
  | [], st => done (.ok st)
  | key :: keys, (bulk, result) =>
    match result.get? key with
    | none => enrichGroups env address isAny keys (bulk, result)
    | some group => do
      let (current, newFields) ← writeGroup env address isAny key group
      let bulk := if newFields = [] then bulk else bulk ++ [(keyHash key, newFields)]
      match current with
      | none => enrichGroups env address isAny keys (bulk, result)
      | some doc =>
        match doc.id with
        | none => done (.error .keyError)
        | some id => enrichGroups env address isAny keys (bulk, addBackFields result id doc.fields)

/-- `bulk_write_attributes`, in the order Mongo makes the writes. -/
def bulkWriteAttributes (address : String) :
    List (String × List (String × Stored β)) → EnrichProgram β γ Unit
  | [] => done ()
  | (hash, stages) :: writes => do
    let _ ← perform (.setFields address hash stages true)
    bulkWriteAttributes address writes

/-- `enrich`. -/
def enrich (env : EnrichEnv β γ) (call : EnrichCall β γ) :
    EnrichProgram β γ (Except PyError (Dict String (ResultGroup β γ))) := do
  let db ← perform (.findTarget call.address)
  let current := (db.targets.get? call.address).bind (·.sysUpTime)
  match ← checkRestart env current call.address (call.result.entries.map Prod.snd) with
  | .error err => done (.error err)
  | .ok () =>
    let db ← perform (.findAttributes call.address)
    let isAny := db.attributes.any fun doc => doc.address = call.address
    match ← enrichGroups env call.address isAny call.result.keys ([], call.result) with
    | .error err => done (.error err)
    | .ok (bulk, result) =>
      bulkWriteAttributes call.address (env.bulkOrder bulk)
      return .ok result

end Enrich

end Sc4snmp
