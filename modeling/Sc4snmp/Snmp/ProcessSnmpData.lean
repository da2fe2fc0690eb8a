import Sc4snmp.Lib.Dict
import Sc4snmp.Lib.PyVal

/-!
# From varbinds to metrics

`Poller.process_snmp_data` of `snmp/manager.py` and what it calls.  A varbind of a
response is an identity that pysnmp has resolved and a value; of both, what the code
reads is a field here.  The result is a dictionary of groups, one for each row of a
table, which several calls fill one after the other.

`time.time()`, which stamps every entry, and the log are left out.

## Main definitions

* `ResponseVarbind` — a varbind of a response.
* `MetricGroup`, `Metrics` — the accumulated metrics.
* `getGroupKey`, `setMetricsIndex`, `setProfileName`, `handleMetrics` — the parts of the loop.
* `isMibKnown`, `findNewMibs` — the search for the MIB of an unresolved varbind.
* `processSnmpData` — the loop.
* `Recorded`, `reportedPart` — what is in the metrics, and the varbinds the loop gets to.

## Main results

* `recorded_processSnmpData_iff` — **the loop records the varbinds in front of the first
  one that blocks it, and no others**.
* `processSnmpData_requests` — what it asks for when one blocks it.
-/

namespace Sc4snmp

/-! ### Varbinds -/

/-- A value in an index. -/
inductive IndexValue
  | int (i : ℤ)
  | str (s : String)
  | bytes (octets : List UInt8)
  /-- Any other object: its class, its text and the text of its `_value`, if it has one. -/
  | object (typeName text : String) (value : Option String)
  deriving DecidableEq, Repr

/-- The `_value` of one index of an identity. -/
inductive IndexContent
  | single (v : IndexValue)
  | tuple (items : List IndexValue)
  deriving DecidableEq, Repr

/-- What the code reads of a resolved `ObjectIdentity`. -/
structure ObjectIdentity where
  /-- `str(get_oid())`. -/
  oid : String
  prettyPrint : String
  /-- The three parts of `get_mib_symbol()`. -/
  mib : String
  metric : String
  index : List IndexContent
  deriving DecidableEq, Repr

/-- What the code reads of a value. -/
structure ResponseValue where
  typeName : String
  /-- Whether `float` takes the value, and what it raises otherwise. -/
  toFloat : Except PyError Unit
  prettyPrint : Except PyError String

/-- A varbind of a response. -/
structure ResponseVarbind where
  identity : ObjectIdentity
  value : ResponseValue

/-! ### Metrics -/

/-- The kinds of metric. -/
inductive MetricType
  | cc | c | g | r | f | te
  deriving DecidableEq, Repr

/-- The value of an entry. -/
inductive MetricValue
  /-- The floating-point number of a text. -/
  | float (text : String)
  | str (s : String)
  | index (v : IndexValue)
  deriving DecidableEq, Repr

/-- One metric or field. -/
structure MetricItem where
  type : MetricType
  value : MetricValue
  oid : String
  deriving DecidableEq, Repr

/-- The metrics and fields of one row. -/
structure MetricGroup where
  metrics : Dict String MetricItem
  fields : Dict String MetricItem
  indexes : List IndexValue
  /-- The key is there when the group was begun with a mapping. -/
  profiles : Option (List String)
  deriving DecidableEq

/-- The accumulated metrics. -/
abbrev Metrics := Dict String MetricGroup

/-! ### The parts of the loop -/

/-- `is_mib_resolved`. -/
def isMibResolved (id : String) : Bool :=
  !(Text.startsWith id "RFC1213-MIB::" || Text.startsWith id "SNMPv2-SMI::enterprises." ||
    Text.startsWith id "SNMPv2-SMI::mib-2")

/-- The class of a value. -/
def IndexValue.typeName : IndexValue → String
  | int _ => "int"
  | str _ => "str"
  | bytes _ => "bytes"
  | object typeName _ _ => typeName

/-- `str` of a value. -/
def IndexValue.text : IndexValue → String
  | int i => toString i
  | str s => s
  | bytes octets => Text.reprOctets octets
  | object _ text _ => text

/-- `str` of the `_value` of an item, or of the item. -/
def IndexValue.itemText : IndexValue → String
  | object _ text value => value.getD text
  | v => v.text

/-- The part of a group key for one index. -/
def groupKeyPart (oid : String) : IndexContent → String
  | .single v =>
      if v.typeName = "ObjectName" then "ObjectName=" ++ oid else v.typeName ++ "=" ++ v.text
  | .tuple items =>
    "tuple=" ++ "|".intercalate (items.map fun v => v.typeName ++ "=" ++ v.itemText)

/-- `get_group_key`. -/
def getGroupKey (mib oid : String) (index : List IndexContent) : String :=
  mib ++ "::" ++ ";".intercalate (index.map (groupKeyPart oid))

def mtypesCc : List String :=
  ["Counter32", "Counter64", "TimeTicks", "CounterBasedGauge64", "ZeroBasedCounter64", "TimeStamp"]

def mtypesG : List String :=
  ["Gauge32", "Gauge64", "Integer", "Integer32", "Unsigned32", "Unsigned64", "TimeInterval",
    "TestAndIncr", "ZeroBasedCounter32"]

def mtypesR : List String := ["ObjectIdentifier", "ObjectIdentity"]

def mtypes : List MetricType := [.cc, .c, .g]

/-- `map_metric_type`. -/
def mapMetricType (value : ResponseValue) : Except PyError MetricType :=
  let metricType : MetricType :=
    if value.typeName ∈ mtypesCc then .cc
    else if value.typeName ∈ mtypesG then .g
    else if value.typeName ∈ mtypesR then .r
    else .f
  if metricType ∈ mtypes then
    match value.toFloat with
    | .ok () => .ok metricType
    | .error .valueError => .ok .te
    | .error err => .error err
  else .ok metricType

/-- `value_as_best`. -/
def valueAsBest (value : String) : MetricValue :=
  if Text.isFloat value then .float value else .str value

/-- `extract_index_number`. -/
def extractIndexNumber : List IndexContent → IndexValue
  | [] => .int 0
  | .single v :: _ => v
  | .tuple items :: _ => items.head?.getD (.int 0)

/-- `extract_indexes`. -/
def extractIndexes (index : List IndexContent) : List IndexValue :=
  if index.isEmpty then [.int 0]
  else index.flatMap fun
    | .single (.bytes octets) => [.str (".".intercalate (octets.map fun b => toString b.toNat))]
    | .single v => [v]
    | .tuple items => items

/-- `fill_empty_value`. -/
def fillEmptyValue (indexNumber : IndexValue) (metricValue : MetricValue) : MetricValue :=
  if metricValue = .str "" then
    match indexNumber with
    | .bytes octets =>
      match String.fromUTF8? ⟨octets.toArray⟩ with
      | some s => .str s
      | none => .str "sc4snmp:unconvertable"
    | .str s => .str s
    | v => .index v
  else metricValue

/-- `Poller.set_metrics_index`. -/
def setMetricsIndex (vb : ResponseVarbind) : Except PyError (MetricType × MetricValue) := do
  let metricType ← mapMetricType vb.value
  let metricValue := valueAsBest (← vb.value.prettyPrint)
  return (metricType, fillEmptyValue (extractIndexNumber vb.identity.index) metricValue)

/-- `Poller.match_mapping_to_profile`. -/
def matchMappingToProfile (mapping : Dict String String) (mib : String) (profile : Option String) :
    Option String :=
  if profile.getD "" = "" then
    match mapping.entries.find? fun e => Text.contains e.1 mib with
    | some e => some e.2
    | none => profile
  else profile

/-- `Poller.clean_profile_name`: the part of a name before the first two underscores. -/
def cleanProfileName (profile : String) : String :=
  match Text.splitDoubled '_' profile.toList with
  | [] => profile
  | name :: _ => String.ofList name

/-- `Poller.set_profile_name`. -/
def setProfileName (mapping : Dict String String) (identity : ObjectIdentity) : Option String :=
  if mapping.entries.isEmpty then none
  else
    let unquoted := String.ofList (identity.prettyPrint.toList.filter (· ≠ Char.ofNat 34))
    let profile := (mapping.get? unquoted).or
      ((mapping.get? (identity.mib ++ "::" ++ identity.metric)).or (mapping.get? identity.mib))
    (matchMappingToProfile mapping identity.mib profile).map cleanProfileName

/-- `Poller.handle_groupkey_without_metrics`. -/
def handleGroupkeyWithoutMetrics (mapping : Dict String String) (groupKey : String)
    (index : List IndexContent) (metrics : Metrics) : Metrics :=
  if groupKey ∈ metrics then metrics
  else metrics.insert groupKey
    { metrics := Dict.empty
      fields := Dict.empty
      indexes := extractIndexes index
      profiles := if mapping.entries.isEmpty then none else some [] }

/-- The profile is noted in the group.  A group that was begun without a mapping has no
list of profiles: looking for it raises, after the metric is written. -/
def MetricGroup.addProfile (group : MetricGroup) (profile : Option String) : MetricGroup :=
  match profile, group.profiles with
  | some profile, some profiles =>
    if profile = "" ∨ profile ∈ profiles then group
    else { group with profiles := some (profiles ++ [profile]) }
  | _, _ => group

/-- Whether a value is a metric of its type. -/
def isMetric (metricType : MetricType) (metricValue : MetricValue) : Bool :=
  metricType ∈ mtypes && match metricValue with
    | .float _ => true
    | _ => false

/-- What one metric or field leaves in its group. -/
def MetricGroup.write (group : MetricGroup) (name : String) (item : MetricItem)
    (profile : Option String) : MetricGroup :=
  if isMetric item.type item.value then
    { group with metrics := group.metrics.insert name item }.addProfile profile
  else { group with fields := group.fields.insert name item }

/-- `Poller.handle_metrics`, as what it leaves in the metrics, whether it returns or raises. -/
def handleMetrics (groupKey name : String) (item : MetricItem) (profile : Option String)
    (metrics : Metrics) : Metrics :=
  match metrics.get? groupKey with
  | none => metrics
  | some group => metrics.insert groupKey (group.write name item profile)

/-- The value of an object past the end of the MIB view. -/
def endOfMibViewText : String := "No more variables left in this MIB View"

namespace ResponseVarbind

/-- The group of a varbind. -/
def groupKey (vb : ResponseVarbind) : String :=
  getGroupKey vb.identity.mib vb.identity.oid vb.identity.index

/-- The name of its metric or field. -/
def fieldName (vb : ResponseVarbind) : String := vb.identity.mib ++ "." ++ vb.identity.metric

/-- The entry of the varbind, if its value has a type and a text and is not the end of
the MIB view. -/
def item? (vb : ResponseVarbind) : Option MetricItem :=
  match setMetricsIndex vb with
  | .error _ => none
  | .ok (metricType, metricValue) =>
    if metricValue = .str endOfMibViewText then none
    else some ⟨metricType, metricValue, vb.identity.oid⟩

/-- The symbol of the varbind is resolved. -/
def resolved (vb : ResponseVarbind) : Bool := isMibResolved vb.identity.prettyPrint

end ResponseVarbind

/-- The body of the loop for a resolved varbind: an exception is logged, and what was
written before it stays. -/
def processResolved (mapping : Dict String String) (vb : ResponseVarbind) (metrics : Metrics) :
    Metrics :=
  let metrics := handleGroupkeyWithoutMetrics mapping vb.groupKey vb.identity.index metrics
  match vb.item? with
  | none => metrics
  | some item => handleMetrics vb.groupKey vb.fieldName item
    (setProfileName mapping vb.identity) metrics

/-! ### The MIB of an unresolved varbind -/

/-- The loop of `Poller.is_mib_known` over the first `n`, `n - 1`, … parts of an identifier. -/
def longestKnown (mibMap : Dict String String) (parts : List String) (start : ℕ) : ℕ → Bool × String
  | 0 => (false, "")
  | n + 1 =>
    if n + 1 ≤ start then (false, "")
    else match mibMap.get? (".".intercalate (parts.take (n + 1))) with
      | some mib => (true, mib)
      | none => longestKnown mibMap parts start n

/-- `Poller.is_mib_known`. -/
def isMibKnown (mibMap : Dict String String) (oid : String) : Bool × String :=
  let parts := Text.splitOn '.' oid
  longestKnown mibMap parts (if Text.startsWith oid "1.3.6.1.4.1" then 6 else 5) parts.length

/-- `Poller.find_new_mibs`. -/
def findNewMibs (mibMap : Dict String String) (oid : String) (remotemibs : List String) :
    Bool × List String :=
  let (found, mib) := isMibKnown mibMap oid
  (found, if mib ≠ "" ∧ mib ∉ remotemibs then remotemibs ++ [mib] else remotemibs)

/-! ### The loop -/

/-- What `process_snmp_data` returns. -/
structure ProcessedData where
  retry : Bool
  remotemibs : List String
  metrics : Metrics

/-- The loop of `Poller.process_snmp_data`. -/
def processFrom (mibMap mapping : Dict String String) :
    List ResponseVarbind → List String → Metrics → ProcessedData
  | [], remotemibs, metrics => ⟨false, remotemibs, metrics⟩
  | vb :: table, remotemibs, metrics =>
    if vb.resolved then
      processFrom mibMap mapping table remotemibs (processResolved mapping vb metrics)
    else
      let (found, remotemibs) := findNewMibs mibMap vb.identity.oid remotemibs
      if found then ⟨true, remotemibs, metrics⟩
      else processFrom mibMap mapping table remotemibs metrics

/-- `Poller.process_snmp_data`. -/
def processSnmpData (mibMap mapping : Dict String String) (table : List ResponseVarbind)
    (metrics : Metrics) : ProcessedData :=
  processFrom mibMap mapping table [] metrics

/-! ### What is in the metrics -/

/-- A metric or field of a name is in a group of the metrics. -/
def Written (metrics : Metrics) (groupKey name : String) : Prop :=
  ∃ group, metrics.get? groupKey = some group ∧ (name ∈ group.metrics ∨ name ∈ group.fields)

instance (metrics : Metrics) (groupKey name : String) : Decidable (Written metrics groupKey name) :=
  match h : metrics.get? groupKey with
  | none => isFalse fun ⟨_, hgroup, _⟩ => by
    rw [h] at hgroup
    cases hgroup
  | some group => decidable_of_iff (name ∈ group.metrics ∨ name ∈ group.fields)
    (by simp [Written, h])

/-- The metric or field of a varbind is in the metrics. -/
def Recorded (metrics : Metrics) (vb : ResponseVarbind) : Prop :=
  Written metrics vb.groupKey vb.fieldName

instance (metrics : Metrics) (vb : ResponseVarbind) : Decidable (Recorded metrics vb) :=
  inferInstanceAs (Decidable (Written metrics vb.groupKey vb.fieldName))

/-- The varbind ends the loop: it is not resolved, and its MIB is known. -/
def ResponseVarbind.blocks (mibMap : Dict String String) (vb : ResponseVarbind) : Bool :=
  !vb.resolved && (isMibKnown mibMap vb.identity.oid).1

/-- The varbinds the loop gets to. -/
def reportedPart (mibMap : Dict String String) (table : List ResponseVarbind) :
    List ResponseVarbind :=
  table.takeWhile fun vb => !vb.blocks mibMap

/-- Two varbinds have one entry between them. -/
def SameEntry (vb vb' : ResponseVarbind) : Prop :=
  vb.groupKey = vb'.groupKey ∧ vb.fieldName = vb'.fieldName

/-- The varbind has a metric or field of its own: it is resolved and has a value. -/
def ResponseVarbind.Carries (vb : ResponseVarbind) : Prop :=
  vb.resolved = true ∧ vb.item?.isSome = true

instance (vb : ResponseVarbind) : Decidable vb.Carries :=
  inferInstanceAs (Decidable (vb.resolved = true ∧ vb.item?.isSome = true))

section Records

variable {mibMap mapping : Dict String String} {metrics : Metrics} {vb vb' : ResponseVarbind}
  {table : List ResponseVarbind} {key name : String}

theorem addProfile_metrics (group : MetricGroup) (profile : Option String) :
    (group.addProfile profile).metrics = group.metrics := by
  unfold MetricGroup.addProfile
  split
  · split <;> rfl
  · rfl

theorem addProfile_fields (group : MetricGroup) (profile : Option String) :
    (group.addProfile profile).fields = group.fields := by
  unfold MetricGroup.addProfile
  split
  · split <;> rfl
  · rfl

/-- Writing an entry adds its name to the group. -/
theorem mem_write_iff (group : MetricGroup) (item : MetricItem) (profile : Option String)
    (name' : String) :
    name' ∈ (group.write name item profile).metrics ∨
        name' ∈ (group.write name item profile).fields ↔
      name' = name ∨ name' ∈ group.metrics ∨ name' ∈ group.fields := by
  unfold MetricGroup.write
  split
  · rw [addProfile_metrics, addProfile_fields]
    show name' ∈ (group.metrics.insert name item).keys ∨ _ ↔ _
    rw [Dict.mem_keys_insert]
    tauto
  · show _ ∨ name' ∈ (group.fields.insert name item).keys ↔ _
    rw [Dict.mem_keys_insert]
    tauto

/-- Beginning a group writes no metric and no field. -/
theorem written_handleGroupkeyWithoutMetrics (groupKey : String) (index : List IndexContent) :
    Written (handleGroupkeyWithoutMetrics mapping groupKey index metrics) key name ↔
      Written metrics key name := by
  unfold handleGroupkeyWithoutMetrics
  split
  · rfl
  next hnew =>
    have hnone : metrics.get? groupKey = none := Dict.get?_eq_none_iff.mpr hnew
    unfold Written
    rw [Dict.get?_insert]
    split
    · next hkey =>
      subst hkey
      simp [hnone]
    · rfl

/-- The group of a varbind is there once it has been begun. -/
theorem mem_handleGroupkeyWithoutMetrics (groupKey : String) (index : List IndexContent) :
    groupKey ∈ (handleGroupkeyWithoutMetrics mapping groupKey index metrics).keys := by
  unfold handleGroupkeyWithoutMetrics
  split
  · next h => exact h
  · exact Dict.mem_keys_insert.mpr (Or.inl rfl)

/-- Writing an entry to a group that is there. -/
theorem written_handleMetrics {groupKey name' : String} {item : MetricItem}
    {profile : Option String} (h : groupKey ∈ metrics.keys) :
    Written (handleMetrics groupKey name' item profile metrics) key name ↔
      Written metrics key name ∨ (groupKey = key ∧ name' = name) := by
  obtain ⟨group, hgroup⟩ := Dict.mem_keys_iff.mp h
  unfold handleMetrics Written
  rw [hgroup]
  simp only [Dict.get?_insert]
  by_cases hkey : key = groupKey
  · subst hkey
    simp only [if_true, Option.some.injEq, exists_eq_left', mem_write_iff, hgroup]
    tauto
  · rw [if_neg hkey]
    have hother : ¬ groupKey = key := fun h => hkey h.symm
    simp [hother]

/-- **A resolved varbind** adds its own entry, if it has one. -/
theorem recorded_processResolved_iff :
    Recorded (processResolved mapping vb metrics) vb' ↔
      Recorded metrics vb' ∨ (vb.item?.isSome = true ∧ SameEntry vb vb') := by
  unfold processResolved Recorded SameEntry
  cases vb.item? with
  | none => simp [written_handleGroupkeyWithoutMetrics]
  | some item =>
    simp only [Option.isSome_some, true_and]
    rw [written_handleMetrics (mem_handleGroupkeyWithoutMetrics _ _),
      written_handleGroupkeyWithoutMetrics]

theorem reportedPart_cons (vb : ResponseVarbind) (table : List ResponseVarbind) :
    reportedPart mibMap (vb :: table) =
      if vb.blocks mibMap = true then [] else vb :: reportedPart mibMap table := by
  unfold reportedPart
  rw [List.takeWhile_cons]
  cases vb.blocks mibMap <;> rfl

theorem blocks_of_resolved (h : vb.resolved = true) : vb.blocks mibMap = false := by
  simp [ResponseVarbind.blocks, h]

/-- A MIB is only named when it is found. -/
theorem longestKnown_notFound (parts : List String) (start n : ℕ)
    (h : (longestKnown mibMap parts start n).1 ≠ true) :
    (longestKnown mibMap parts start n).2 = "" := by
  induction n with
  | zero => rfl
  | succ n ih =>
    rw [longestKnown] at h ⊢
    split at h
    · next hstart => rw [if_pos hstart]
    · next hstart =>
      rw [if_neg hstart]
      split at h
      · exact absurd rfl h
      · exact ih h

theorem findNewMibs_notFound {oid : String} (remotemibs : List String)
    (h : (isMibKnown mibMap oid).1 ≠ true) :
    findNewMibs mibMap oid remotemibs = (false, remotemibs) := by
  have hmib : (isMibKnown mibMap oid).2 = "" := longestKnown_notFound _ _ _ h
  have hfound : (isMibKnown mibMap oid).1 = false := by simpa using h
  simp only [findNewMibs, hmib, hfound]
  rfl

/-! The three things the loop can do at a varbind. -/

theorem processFrom_resolved (h : vb.resolved = true) (remotemibs : List String) :
    processFrom mibMap mapping (vb :: table) remotemibs metrics =
      processFrom mibMap mapping table remotemibs (processResolved mapping vb metrics) := by
  rw [processFrom, if_pos h]

theorem processFrom_blocks (h : vb.blocks mibMap = true) (remotemibs : List String) :
    processFrom mibMap mapping (vb :: table) remotemibs metrics =
      ⟨true, (findNewMibs mibMap vb.identity.oid remotemibs).2, metrics⟩ := by
  obtain ⟨hresolved, hfound⟩ := Bool.and_eq_true_iff.mp h
  have hunresolved : ¬ vb.resolved = true := by simpa using hresolved
  have hnew : (findNewMibs mibMap vb.identity.oid remotemibs).1 = true := hfound
  rw [processFrom, if_neg hunresolved]
  generalize findNewMibs mibMap vb.identity.oid remotemibs = found at hnew ⊢
  obtain ⟨_, mibs⟩ := found
  cases hnew
  rfl

theorem processFrom_unknown (h : vb.resolved ≠ true) (hblocks : vb.blocks mibMap ≠ true)
    (remotemibs : List String) :
    processFrom mibMap mapping (vb :: table) remotemibs metrics =
      processFrom mibMap mapping table remotemibs metrics := by
  have hfound : (isMibKnown mibMap vb.identity.oid).1 ≠ true := by
    intro hfound
    apply hblocks
    simp [ResponseVarbind.blocks, h, hfound]
  rw [processFrom, if_neg h, findNewMibs_notFound remotemibs hfound]
  rfl

/-- The loop from any point. -/
theorem recorded_processFrom_iff (table : List ResponseVarbind) (remotemibs : List String)
    (metrics : Metrics) :
    Recorded (processFrom mibMap mapping table remotemibs metrics).metrics vb' ↔
      Recorded metrics vb' ∨ ∃ vb ∈ reportedPart mibMap table, vb.Carries ∧ SameEntry vb vb' := by
  induction table generalizing metrics with
  | nil => simp [processFrom, reportedPart]
  | cons vb table ih =>
    rw [reportedPart_cons]
    by_cases hresolved : vb.resolved = true
    · have hcarries : vb.Carries ↔ vb.item?.isSome = true := by
        simp [ResponseVarbind.Carries, hresolved]
      rw [processFrom_resolved hresolved, ih, recorded_processResolved_iff,
        if_neg (by simp [blocks_of_resolved hresolved]), List.exists_mem_cons_iff, hcarries,
        or_assoc]
    have hcarries : ¬ vb.Carries := by simp [ResponseVarbind.Carries, hresolved]
    by_cases hblocks : vb.blocks mibMap = true
    · rw [processFrom_blocks hblocks, if_pos hblocks]
      simp
    · rw [processFrom_unknown hresolved hblocks, ih, if_neg hblocks, List.exists_mem_cons_iff]
      tauto

/-- **The loop records the varbinds in front of the first one that blocks it, and no
others.** -/
theorem recorded_processSnmpData_iff :
    Recorded (processSnmpData mibMap mapping table metrics).metrics vb' ↔
      Recorded metrics vb' ∨ ∃ vb ∈ reportedPart mibMap table, vb.Carries ∧ SameEntry vb vb' :=
  recorded_processFrom_iff table [] metrics

/-! ### What the loop asks for -/

/-- The MIB that the first blocking varbind asks for, unless it has no name. -/
def requestedMibs (mibMap : Dict String String) (table : List ResponseVarbind) : List String :=
  match table.find? fun vb => vb.blocks mibMap with
  | none => []
  | some vb => (findNewMibs mibMap vb.identity.oid []).2

/-- **The loop asks to be run again** with the MIB of the first varbind that blocks it. -/
theorem processSnmpData_requests :
    (processSnmpData mibMap mapping table metrics).retry =
        table.any (fun vb => vb.blocks mibMap) ∧
      (processSnmpData mibMap mapping table metrics).remotemibs = requestedMibs mibMap table := by
  unfold processSnmpData requestedMibs
  induction table generalizing metrics with
  | nil => exact ⟨rfl, rfl⟩
  | cons vb table ih =>
    rw [List.any_cons, List.find?_cons]
    by_cases hresolved : vb.resolved = true
    · rw [processFrom_resolved hresolved, blocks_of_resolved hresolved, Bool.false_or]
      exact ih
    by_cases hblocks : vb.blocks mibMap = true
    · rw [processFrom_blocks hblocks, hblocks]
      exact ⟨rfl, rfl⟩
    · rw [processFrom_unknown hresolved hblocks, Bool.eq_false_iff.mpr hblocks, Bool.false_or]
      exact ih

/-- A loop that is not blocked asks for nothing. -/
theorem requestedMibs_of_any (h : table.any (fun vb => vb.blocks mibMap) = false) :
    requestedMibs mibMap table = [] := by
  have hnone : table.find? (fun vb => vb.blocks mibMap) = none := by
    rw [List.find?_eq_none]
    intro vb hvb hblocks
    rw [List.any_eq_false] at h
    exact h vb hvb hblocks
  rw [requestedMibs, hnone]

end Records

end Sc4snmp
