import Sc4snmp.Enrich.OneCall
import Sc4snmp.Snmp.Poll
import Sc4snmp.Snmp.TrapStatus
import Sc4snmp.Splunk.Prepare

/-!
# From the devices to Splunk

The tasks in a row: `poll` and then `enrich` and `prepare`, or `trap` and then `prepare`.  What
a task returns travels as JSON; a value that JSON does not have stops there.  All times of one
task are one here.

## Main definitions

* `ofMetricItem`, `resultGroup`, `workGroup` — what the tasks hand on.
* `PollRun`, `TrapDelivery` — the two rows.

## Main results

* `PollRun.hasField`, `TrapDelivery.hasField` — an entry of the metrics is a field of the work
  that `prepare` is given.
-/

namespace Sc4snmp

namespace Splunk

open Enrich (ResultGroup EnrichEnv EnrichDb KeepsFields)

/-! ### What the tasks hand on -/

/-- The value of an entry as JSON. -/
def ofMetricValue : MetricValue → Except PyError Json
  | .float text => match PyFloat.ofText text with
    | some x => .ok (.float x)
    | none => .error .valueError
  | .str s => .ok (.str s)
  | .index (.int i) => .ok (.int i)
  | .index (.str s) => .ok (.str s)
  | .index _ => .error .other

/-- The name of a kind of metric. -/
def ofMetricType : MetricType → String
  | .cc => "cc"
  | .c => "c"
  | .g => "g"
  | .r => "r"
  | .f => "f"
  | .te => "te"

/-- An entry as JSON. -/
def ofMetricItem (time : Float) (item : MetricItem) : Except PyError Item := do
  let value ← ofMetricValue item.value
  return Dict.ofList [("time", .float time), ("type", .str (ofMetricType item.type)),
    ("value", value), ("oid", .str item.oid)]

/-- A group of metrics as JSON. -/
def resultGroup (time : Float) (group : MetricGroup) : Except PyError (ResultGroup Item Item) := do
  let fields ← mapItems (ofMetricItem time) group.fields
  let metrics ← mapItems (ofMetricItem time) group.metrics
  return ⟨fields, metrics, group.indexes⟩

/-- A group of a result as `prepare` reads it. -/
def workGroup (profiles : Option String) (group : ResultGroup Item Item) : WorkGroup :=
  ⟨group.fields, group.metrics, profiles, some group.indexes⟩

/-- `enrich` gives each field its name. -/
def named (group : ResultGroup Item Item) : ResultGroup Item Item :=
  { group with fields := group.fields.mapEntries fun k item => item.insert "name" (.str k) }

/-! ### The two rows of tasks -/

/-- A poll on its way. -/
structure PollRun where
  mibMap : Dict String String
  mapping : Dict String String
  /-- The response that is read last, and what is collected before. -/
  table : List ResponseVarbind
  before : Metrics
  time : Float
  time_finite : time.isFinite = true
  address : String
  frequency : Option ℤ
  group : Option String
  enrichEnv : EnrichEnv Item Item
  db : EnrichDb Item Item
  splunkEnv : SplunkEnv

namespace PollRun

/-- What the poll collects. -/
def metrics (run : PollRun) : Metrics :=
  (processSnmpData run.mibMap run.mapping run.table run.before).metrics

/-- What `poll` returns. -/
def polled (run : PollRun) : Except PyError (Dict String (ResultGroup Item Item)) :=
  mapItems (resultGroup run.time) run.metrics

/-- What `enrich` returns. -/
def enriched (run : PollRun) : Except PyError (Dict String (ResultGroup Item Item)) := do
  let result ← run.polled
  (Program.run (Enrich.EnrichOp.apply run.enrichEnv)
    (Enrich.enrich run.enrichEnv ⟨run.address, result⟩) run.db).2

/-- What `prepare` is given. -/
def work (run : PollRun) : Except PyError Work := do
  let result ← run.enriched
  return {
    time := run.time
    address := run.address
    sourcetype := none
    frequency := run.frequency
    group := run.group
    fields := none
    result := result.mapEntries fun key group =>
      workGroup (joinedProfiles run.metrics key) (named group)
    time_finite := run.time_finite }

/-- What `prepare` returns. -/
def prepared (run : PollRun) : Except PyError Prepared := do prepare run.splunkEnv (← run.work)

end PollRun

/-- A trap on its way. -/
structure TrapDelivery (B : Type) where
  run : TrapRun B
  time : Float
  time_finite : time.isFinite = true
  splunkEnv : SplunkEnv

namespace TrapDelivery

variable {B : Type}

/-- What `prepare` is given. -/
def work (delivery : TrapDelivery B) : Except PyError Work := do
  let result ← delivery.run.returned
  let groups ← mapItems (resultGroup delivery.time) result.result
  return {
    time := delivery.time
    address := result.address
    sourcetype := some result.sourcetype
    frequency := none
    group := none
    fields := result.fields
    result := groups.mapValues (workGroup none)
    time_finite := delivery.time_finite }

/-- What `prepare` returns. -/
def prepared (delivery : TrapDelivery B) : Except PyError Prepared := do
  prepare delivery.splunkEnv (← delivery.work)

end TrapDelivery

/-! ### From the entries to the fields -/

section Fields

variable {place : EntryPlace} {item : MetricItem} {metrics : Metrics} {time : Float}

/-- An entry among the fields is a field of its group. -/
theorem field_of_entryAt (hentry : entryAt metrics place = some item)
    (hfield : place.isMetric = false) :
    ∃ group, metrics.get? place.groupKey = some group ∧
      group.fields.get? place.name = some item := by
  obtain ⟨group, hgroup, hitem⟩ := Option.bind_eq_some_iff.mp hentry
  rw [hfield] at hitem
  exact ⟨group, hgroup, hitem⟩

/-- The entry is a field of the result as JSON. -/
theorem field_of_mapItems {result : Dict String (ResultGroup Item Item)}
    (hresult : mapItems (resultGroup time) metrics = .ok result)
    (hentry : entryAt metrics place = some item) (hfield : place.isMetric = false) :
    ∃ group values, result.get? place.groupKey = some group ∧
      group.fields.get? place.name = some values ∧ ofMetricItem time item = .ok values := by
  obtain ⟨group, hgroup, hitem⟩ := field_of_entryAt hentry hfield
  obtain ⟨group', hgroup', hget⟩ := get?_mapItems hresult hgroup
  obtain ⟨fields, hfields, hgroup'⟩ := PyError.bind_eq_ok.mp hgroup'
  obtain ⟨metrics', hmetrics', hgroup'⟩ := PyError.bind_eq_ok.mp hgroup'
  cases hgroup'
  obtain ⟨values, hvalues, hname⟩ := get?_mapItems hfields hitem
  exact ⟨_, values, hget, hname, hvalues⟩

theorem value_of_ofMetricItem {values : Item} (h : ofMetricItem time item = .ok values) :
    ∃ v, ofMetricValue item.value = .ok v ∧ values.value = .ok v := by
  obtain ⟨v, hv, h⟩ := PyError.bind_eq_ok.mp h
  cases h
  exact ⟨v, hv, rfl⟩

/-- The name that `enrich` sets leaves the value alone. -/
theorem value_insert_name (values : Item) (name : String) :
    Item.value (values.insert "name" (.str name)) = values.value := by
  unfold Item.value
  rw [Dict.get?_insert, if_neg (by decide)]

end Fields

/-- A field of a group of the work, with the value of an entry. -/
def HasField (work : Work) (place : EntryPlace) (item : MetricItem) : Prop :=
  ∃ data values v, work.result.get? place.groupKey = some data ∧
    data.fields.get? place.name = some values ∧ ofMetricValue item.value = .ok v ∧
      values.value = .ok v

/-- **An entry of a poll** is a field of the work that `prepare` is given. -/
theorem PollRun.hasField (run : PollRun) {work : Work} {place : EntryPlace} {item : MetricItem}
    (hwork : run.work = .ok work) (hentry : entryAt run.metrics place = some item)
    (hfield : place.isMetric = false) : HasField work place item := by
  obtain ⟨result', henriched, hwork⟩ := PyError.bind_eq_ok.mp hwork
  cases hwork
  obtain ⟨result, hresult, henriched⟩ := PyError.bind_eq_ok.mp henriched
  obtain ⟨group, values, hgroup, hvalues, hitem⟩ := field_of_mapItems hresult hentry hfield
  obtain ⟨v, hv, hvalue⟩ := value_of_ofMetricItem hitem
  have hkeeps : KeepsFields result result' :=
    (Enrich.keepsFields_enrich run.enrichEnv ⟨run.address, result⟩).returns run.db result' henriched
  obtain ⟨group', hgroup', -, hfields⟩ := hkeeps _ _ hgroup
  refine ⟨workGroup (joinedProfiles run.metrics place.groupKey) (named group'),
    values.insert "name" (.str place.name), v, ?_, ?_, hv, ?_⟩
  · show Dict.get? (Dict.mapEntries _ result') _ = _
    rw [Dict.get?_mapEntries, hgroup']
    rfl
  · show Dict.get? (Dict.mapEntries _ group'.fields) _ = _
    rw [Dict.get?_mapEntries, hfields _ _ hvalues]
    rfl
  · rw [value_insert_name, hvalue]

/-- **An entry of a trap** is a field of the work that `prepare` is given. -/
theorem TrapDelivery.hasField {B : Type} (delivery : TrapDelivery B) {work : Work}
    {result : TrapResult} {place : EntryPlace} {item : MetricItem}
    (hwork : delivery.work = .ok work) (hresult : delivery.run.returned = .ok result)
    (hentry : entryAt result.result place = some item) (hfield : place.isMetric = false) :
    HasField work place item := by
  obtain ⟨result', hresult', hwork⟩ := PyError.bind_eq_ok.mp hwork
  cases hresult.symm.trans hresult'
  obtain ⟨groups, hgroups, hwork⟩ := PyError.bind_eq_ok.mp hwork
  cases hwork
  obtain ⟨group, values, hgroup, hvalues, hitem⟩ := field_of_mapItems hgroups hentry hfield
  obtain ⟨v, hv, hvalue⟩ := value_of_ofMetricItem hitem
  refine ⟨workGroup none group, values, v, ?_, hvalues, hv, hvalue⟩
  show Dict.get? (Dict.mapValues _ groups) _ = _
  rw [Dict.get?_mapValues, hgroup]
  rfl

end Splunk

end Sc4snmp
