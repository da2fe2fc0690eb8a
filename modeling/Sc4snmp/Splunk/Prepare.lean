import Sc4snmp.Lib.Json
import Sc4snmp.Snmp.ProcessSnmpData

/-!
# Preparation for Splunk

`prepare` of `splunk/tasks.py`: the groups of a result become events and metrics, each a JSON
text.  The content of an event is a JSON text inside of another.

An exception is a value here.  `aggregate_traps` reads the contents back that it has just
written; they are kept as they are.

## Main definitions

* `Item`, `WorkGroup`, `Work` — what `enrich` and `trap` return.
* `SplunkEnv` — the setting.
* `scientificValue`, `valueAsBest` — the pattern and the conversion.
* `applyCustomTranslations`, `setMetricsFields`, `prepareTrapData`, `aggregateTraps`,
  `prepare` — the source.
-/

namespace Sc4snmp

namespace Splunk

/-! ### The data -/

/-- A field or metric: `time`, `type`, `value`, `oid` and, from `enrich`, `name`. -/
abbrev Item := Dict String Json

/-- A group of a result. -/
structure WorkGroup where
  fields : Dict String Item
  metrics : Dict String Item
  profiles : Option String
  indexes : Option (List IndexValue)

/-- A result with what goes with it. -/
structure Work where
  time : Float
  address : String
  sourcetype : Option String
  frequency : Option ℤ
  group : Option String
  fields : Option (Dict String String)
  result : Dict String WorkGroup
  /-- The time is that of a clock. -/
  time_finite : time.isFinite = true

/-- What `prepare` depends on. -/
structure SplunkEnv where
  sourcetypeTraps : String
  sourcetypePollingMetrics : String
  sourcetypePollingEvents : String
  indexEvents : String
  indexMetrics : String
  metricNameHyphenToUnderscore : Bool
  metricsIndexingEnabled : Bool
  aggregateTrapsEvents : Bool
  /-- `None` is no translation. -/
  customTranslations : Dict String (Dict String String)

/-! ### Dictionaries of results -/

/-- The values of a dictionary, each through a function that may raise. -/
def mapItems {α β : Type} (f : α → Except PyError β) (d : Dict String α) :
    Except PyError (Dict String β) := do
  let entries ← d.entries.mapM fun (k, v) => do return (k, ← f v)
  return Dict.ofList entries

theorem rel_mapItems {α β : Type} {f : α → Except PyError β} {d : Dict String α}
    {d' : Dict String β}
    (h : mapItems f d = .ok d') (k : String) :
    Option.Rel (fun v w => f v = .ok w) (d.get? k) (d'.get? k) := by
  obtain ⟨es, hes, h⟩ := PyError.bind_eq_ok.mp h
  cases h
  have hentries : List.Forall₂ (fun e e' => e'.1 = e.1 ∧ f e.2 = .ok e'.2) d.entries es := by
    refine (PyError.forall₂_of_mapM hes).imp ?_
    intro e e' he
    obtain ⟨w, hw, he⟩ := PyError.bind_eq_ok.mp he
    cases he
    exact ⟨rfl, hw⟩
  have hkeys : d.entries.map Prod.fst = es.map Prod.fst := by
    rw [← List.forall₂_eq_eq_eq, List.forall₂_map_left_iff, List.forall₂_map_right_iff]
    exact hentries.imp fun e e' he => he.1.symm
  rw [Dict.get?_ofList es (hkeys ▸ d.nodupKeys)]
  exact Dict.rel_lookup_of_forall₂ (fun v w => f v = .ok w) hentries k

/-- A key of a dictionary still has its value behind the function. -/
theorem get?_mapItems {α β : Type} {f : α → Except PyError β} {d : Dict String α}
    {d' : Dict String β} (h : mapItems f d = .ok d') {k : String} {v : α} (hv : d.get? k = some v) :
    ∃ w, f v = .ok w ∧ d'.get? k = some w := by
  have hrel := rel_mapItems h k
  rw [hv] at hrel
  cases hw : d'.get? k with
  | none =>
    rw [hw] at hrel
    cases hrel
  | some w =>
    rw [hw] at hrel
    cases hrel with
    | some hf => exact ⟨w, hf, rfl⟩

/-! ### Values -/

/-- What is left after one digit or more, no underscores between them. -/
def afterPlainDigits (cs : List Char) : Option (List Char) :=
  let rest := cs.dropWhile fun c => (Text.decimalValue c).isSome
  if rest.length < cs.length then some rest else none

/-- What is left after a sign, if there is one. -/
def afterSign : List Char → List Char
  | '+' :: cs => cs
  | '-' :: cs => cs
  | cs => cs

/-- The part of the pattern that begins with `[eE]`; the end is also in front of a last newline. -/
def scientificExponent : List Char → Bool
  | c :: cs => (c = 'e' || c = 'E') && match afterPlainDigits (afterSign cs) with
    | some rest => rest = [] || rest = [Char.ofNat 10]
    | none => false
  | [] => false

/-- `SCIENTIFIC_VALUE`. -/
def scientificValue (s : String) : Bool :=
  match afterPlainDigits (afterSign s.toList) with
  | none => false
  | some ('.' :: cs) => (afterPlainDigits cs).any scientificExponent
  | some cs => scientificExponent cs

/-- `value_as_best`. -/
def valueAsBest : Json → Except PyError Json
  | .str s =>
    if scientificValue s then .ok (.str s)
    else match PyFloat.ofText s with
      | some x => .ok (.float x)
      | none => .ok (.str s)
  | .int i => match PyFloat.ofInt i with
    | some x => .ok (.float x)
    | none => .error .other
  | .bool b => .ok (.float (Float.ofInt (if b then 1 else 0)))
  | v => .ok v

/-- `values["value"]`. -/
def Item.value (item : Item) : Except PyError Json :=
  match item.get? "value" with
  | some v => .ok v
  | none => .error .keyError

/-! ### Translations -/

/-- `field.partition(".")`, if the separator is there. -/
def partition (field : String) : Option (String × String) :=
  match field.toList.dropWhile (· ≠ '.') with
  | [] => none
  | _ :: name => some (String.ofList (field.toList.takeWhile (· ≠ '.')), String.ofList name)

/-- The new name of a field, if it has one. -/
def translation (translations : Dict String (Dict String String)) (field : String) :
    Option String := do
  let (mib, name) ← partition field
  let ct ← (← translations.get? mib).get? name
  if ct = "" then none else some (mib ++ "." ++ ct)

/-- `apply_custom_translation_to_collection`; the items of `fields` are renamed too. -/
def applyCustomTranslationToCollection (translations : Dict String (Dict String String))
    (areFields : Bool) (items : Dict String Item) : Dict String Item :=
  Dict.ofList (items.entries.map fun (field, values) =>
    match translation translations field with
    | some name => (name, if areFields then values.insert "name" (.str name) else values)
    | none => (field, values))

/-- The translations of a group. -/
def WorkGroup.translate (translations : Dict String (Dict String String)) (data : WorkGroup) :
    WorkGroup :=
  { data with
    fields := applyCustomTranslationToCollection translations true data.fields
    metrics := applyCustomTranslationToCollection translations false data.metrics }

/-- `apply_custom_translations`: the groups of the result, with their new names. -/
def applyCustomTranslations (env : SplunkEnv) (work : Work) : List WorkGroup :=
  work.result.entries.map fun (_, data) =>
    if env.customTranslations.entries.isEmpty then data
    else data.translate env.customTranslations

/-! ### Metrics -/

/-- An assignment to a key of `metric["fields"]`, of a value as it is or through
`value_as_best`. -/
structure Assignment where
  key : String
  value : Except PyError Json
  asBest : Bool

/-- The value that is assigned. -/
def Assignment.assigned (a : Assignment) : Except PyError Json := do
  let v ← a.value
  if a.asBest then valueAsBest v else return v

/-- The text after the last dot. -/
def shortField (field : String) : String := ((Text.splitOn '.' field).getLast?).getD field

/-- The key of a metric. -/
def metricName (env : SplunkEnv) (field : String) : String :=
  "metric_name:sc4snmp." ++
    if env.metricNameHyphenToUnderscore then Text.replaceChar '-' '_' field else field

/-- The assignments of `set_metrics_fields`, in their order. -/
def assignments (env : SplunkEnv) (work : Work) (data : WorkGroup) : List Assignment :=
  (work.frequency.map fun f => ⟨"frequency", .ok (.int f), false⟩).toList ++
  (data.profiles.map fun p => ⟨"profiles", .ok (.str p), false⟩).toList ++
  ((work.group.filter (· ≠ "")).map fun g => ⟨"group", .ok (.str g), false⟩).toList ++
  (data.fields.entries.map fun (field, values) => ⟨shortField field, Item.value values, true⟩) ++
  (data.metrics.entries.map fun (field, values) =>
    ⟨metricName env field, Item.value values, true⟩) ++
  (match env.metricsIndexingEnabled, data.indexes with
    | true, some indexes =>
      [⟨"mibIndex", .ok (.str (".".intercalate (indexes.map IndexValue.text))), false⟩]
    | _, _ => [])

/-- `set_metrics_fields`. -/
def setMetricsFields (env : SplunkEnv) (work : Work) (data : WorkGroup) :
    Except PyError (Dict String Json) := do
  let entries ← (assignments env work data).mapM fun a => do return (a.key, ← a.assigned)
  return Dict.ofList entries

/-- A metric, with its fields. -/
def metricDoc (env : SplunkEnv) (work : Work) (fields : Dict String Json) : Json :=
  .obj [("time", .float work.time), ("event", .str "metric"), ("source", .str "sc4snmp"),
    ("sourcetype", .str env.sourcetypePollingMetrics), ("host", .str work.address),
    ("index", .str env.indexMetrics), ("fields", .obj fields.entries)]

/-! ### Events -/

/-- Items as a JSON object. -/
def contentDoc (content : Dict String Item) : Json :=
  .obj (content.entries.map fun (k, item) => (k, .obj item.entries))

/-- An event. -/
structure Event where
  time : Float
  content : Dict String Item
  sourcetype : String
  host : String
  index : String
  fields : Option (Dict String String)
  time_finite : time.isFinite = true

/-- The text of the content. -/
def Event.nested (event : Event) : String := (contentDoc event.content).dumps

/-- The event. -/
def Event.doc (event : Event) : Json :=
  .obj ([("time", .float event.time), ("event", .str event.nested), ("source", .str "sc4snmp"),
      ("sourcetype", .str event.sourcetype), ("host", .str event.host),
      ("index", .str event.index)] ++
    (event.fields.map fun fields =>
      ("fields", .obj (fields.entries.map fun (k, v) => (k, .str v)))).toList)

/-- The event of a group without metrics. -/
def pollingEvent (env : SplunkEnv) (work : Work) (data : WorkGroup) : Event where
  time := work.time
  content := data.fields
  sourcetype := env.sourcetypePollingEvents
  host := work.address
  index := env.indexEvents
  fields := none
  time_finite := work.time_finite

/-- `processed` in `prepare_trap_data`. -/
def processedMetrics (metrics : Dict String Item) : Except PyError (Dict String Item) := do
  let entries ← metrics.entries.mapM fun (k, item) => do
    return (k, item.insert "value" (← valueAsBest (← item.value)))
  return Dict.ofList entries

/-- The event of a group of a trap. -/
def trapEvent (env : SplunkEnv) (work : Work) (data : WorkGroup) : Except PyError Event := do
  let processed ← processedMetrics data.metrics
  return {
    time := work.time
    content := data.fields.update processed
    sourcetype := env.sourcetypeTraps
    host := work.address
    index := env.indexEvents
    fields := work.fields
    time_finite := work.time_finite }

/-- An item with its value made a number where that is best. -/
def bestItem (item : Item) : Except PyError Item := do
  return item.insert "value" (← valueAsBest (← item.value))

theorem processedMetrics_eq (metrics : Dict String Item) :
    processedMetrics metrics = mapItems bestItem metrics := by
  have hstep : (fun e : String × Item => (do
        return (e.1, e.2.insert "value" (← valueAsBest (← e.2.value))) : Except PyError _)) =
      fun e => do return (e.1, ← bestItem e.2) := by
    funext e
    unfold bestItem
    cases e.2.value with
    | error err => rfl
    | ok v => cases hv : valueAsBest v <;> simp [bind, Except.bind, pure, Except.pure, hv]
  exact congrArg (fun f => metrics.entries.mapM f >>= fun es => pure (Dict.ofList es)) hstep

/-- `aggregate_traps`. -/
def aggregateTraps : List Event → Except PyError (List Event)
  | [] => .error .indexError
  | event :: events =>
    .ok [{ event with
      content := events.foldl (fun content e => content.update e.content)
        (Dict.empty.update event.content) }]

/-- `prepare_trap_data`, of the translated groups. -/
def prepareTrapData (env : SplunkEnv) (work : Work) (groups : List WorkGroup) :
    Except PyError (List Event) := do
  let events ← groups.mapM (trapEvent env work)
  if env.aggregateTrapsEvents then aggregateTraps events else return events

/-! ### The task -/

/-- What `prepare` returns, before it is written as texts. -/
structure Prepared where
  metrics : List Json
  events : List Event

/-- The strings `prepare` returns. -/
def Prepared.metricTexts (p : Prepared) : List String := p.metrics.map Json.dumps

def Prepared.eventTexts (p : Prepared) : List String := p.events.map fun e => e.doc.dumps

/-- The loop of `prepare` over the groups. -/
def prepareGroups (env : SplunkEnv) (work : Work) : List WorkGroup → Except PyError Prepared
  | [] => .ok ⟨[], []⟩
  | data :: groups =>
    if data.metrics.entries.isEmpty then do
      let p ← prepareGroups env work groups
      return { p with events := pollingEvent env work data :: p.events }
    else do
      let fields ← setMetricsFields env work data
      let p ← prepareGroups env work groups
      return { p with metrics := metricDoc env work fields :: p.metrics }

/-- `prepare`. -/
def prepare (env : SplunkEnv) (work : Work) : Except PyError Prepared :=
  let groups := applyCustomTranslations env work
  if work.sourcetype = some env.sourcetypeTraps then do
    return ⟨[], ← prepareTrapData env work groups⟩
  else prepareGroups env work groups

end Splunk

end Sc4snmp
