import Sc4snmp.Snmp.SnmpResponses

/-!
# Traps

The task `trap` of `snmp/tasks.py`.  The varbinds of a trap are pairs of texts; pysnmp
translates them, some only after a MIB is loaded.  The translated ones go through
`_process_trap_metrics`, and what is left over is appended to the result when
`INCLUDE_UNRESOLVED_TRAP_VARBINDS` is set.  A task that raises has changed the MIB data up to
there.

## Main definitions

* `TrapEnv`, `TrapWork`, `TrapResult` — the setting, the work and what `trap` returns.
* `Worked` — the MIB data after a part of the task, and what the part returns.
* `preloadTrapMibs`, `retryTrapVarbindsAfterMibLoad`, `reResolveTrapWorkIfNeeded` — the
  passes in front of the metrics.
* `translateTrap` — these passes together.
* `unprocessedTrapVarbinds`, `mergeUnresolvedTrapVarbinds`, `appendUnresolvedTrapVarbinds` —
  what is left over.
* `trap` — the task.
-/

namespace Sc4snmp

/-- A varbind of a trap: its name and its value. -/
abbrev TrapPair := String × String

/-- The setting of a trap worker. -/
structure TrapEnv where
  config : PollerConfig
  /-- `MAX_TRAP_VARBINDS_TO_DECODE`. -/
  maxTrapVarbindsToDecode : ℕ
  /-- `INCLUDE_UNRESOLVED_TRAP_VARBINDS`. -/
  includeUnresolvedTrapVarbinds : Bool
  /-- `SPLUNK_SOURCETYPE_TRAPS`. -/
  splunkSourcetypeTraps : String
  ipv6Enabled : Bool
  resolveTrapAddress : Bool
  /-- `resolve_address`. -/
  resolveAddress : String → Except PyError String
  /-- The order of a set of names. -/
  setOrder : List String → List String
  setOrder_perm : ∀ names, (setOrder names).Perm names

/-- The work of a trap. -/
structure TrapWork where
  data : List TrapPair
  host : String
  fields : Option (Dict String String)

/-- What `_build_result` returns. -/
structure TrapResult where
  result : Metrics
  address : String
  detectchange : Bool
  sourcetype : String
  fields : Option (Dict String String)

/-- A part of the task: the MIB data after it, and what it returns. -/
abbrev Worked (B α : Type) := MibState B × Except PyError α

/-- The parts behind one that returns. -/
def Worked.andThen {B α β : Type} (w : Worked B α) (f : MibState B → α → Worked B β) :
    Worked B β :=
  match w.2 with
  | .ok a => f w.1 a
  | .error err => (w.1, .error err)

theorem Worked.andThen_eq_ok {B α β : Type} {w : Worked B α} {f : MibState B → α → Worked B β}
    {b : β} : (w.andThen f).2 = .ok b ↔ ∃ a, w.2 = .ok a ∧ (f w.1 a).2 = .ok b := by
  obtain ⟨st, result⟩ := w
  cases result <;> simp [Worked.andThen]

variable {B : Type}

/-! ### The texts -/

/-- `limit_trap_varbind_pairs`. -/
def limitTrapVarbindPairs (limit : ℕ) (pairs : List TrapPair) : List TrapPair :=
  if limit = 0 ∨ pairs.length ≤ limit then pairs else pairs.take limit

/-- `format_ipv4_address`. -/
def formatIpv4Address (env : TrapEnv) (host : String) : String :=
  if env.ipv6Enabled && Text.contains host "." then ((Text.splitOn ':' host).getLast?).getD host
  else host

/-- `_oids_for_mib_lookup`. -/
def oidsForMibLookup (pair : TrapPair) : List String := [pair.1, pair.2].filter oidValidator

/-- `_is_enterprise_oid`. -/
def isEnterpriseOid (oid : String) : Bool := Text.startsWith oid "1.3.6.1.4.1"

/-! ### The passes in front of the metrics -/

/-- The MIBs that are known of some identifiers. -/
def knownMibs (mibMap : Dict String String) (oids : List String) : List String :=
  oids.filterMap fun oid =>
    let (found, mib) := isMibKnown mibMap oid
    if found then some mib else none

/-- `_preload_trap_mibs`. -/
def preloadTrapMibs (env : TrapEnv) (py : PySnmp B) (st : MibState B) (data : List TrapPair) :
    MibState B × Bool :=
  let oids := (data.flatMap oidsForMibLookup).filter isEnterpriseOid
  loadNewTrapMibs py st (env.setOrder (knownMibs env.config.mibMap oids))

/-- The MIB of a varbind is known by its name. -/
def isRetried (mibMap : Dict String String) (pair : TrapPair) : Bool := (isMibKnown mibMap pair.1).1

/-- The load in `_retry_trap_varbinds_after_mib_load`. -/
def loadDeferredMibs (env : TrapEnv) (py : PySnmp B) (st : MibState B)
    (notTranslated : List TrapPair) : MibState B × Bool :=
  let remotemibs := knownMibs env.config.mibMap (notTranslated.map Prod.fst)
  if remotemibs.isEmpty then (st, false) else loadNewTrapMibs py st (env.setOrder remotemibs)

/-- `_retry_trap_varbinds_after_mib_load`; a pair that fails again is appended to those whose MIB
is not known. -/
def retryTrapVarbindsAfterMibLoad (env : TrapEnv) (py : PySnmp B) (st : MibState B)
    (data notTranslated : List TrapPair) (table : List ResponseVarbind) : Worked B TrapTable :=
  let retryPairs := notTranslated.filter (isRetried env.config.mibMap)
  let unresolved := notTranslated.filter fun pair => !isRetried env.config.mibMap pair
  let (st, anyLoaded) := loadDeferredMibs env py st notTranslated
  (st,
    if anyLoaded then resolveWorkVarbinds py st.builder data
    else do
      let retried ← resolveWorkVarbinds py st.builder retryPairs
      return ⟨table ++ retried.varbindTable, unresolved ++ retried.unresolved⟩)

/-- The first pass of `trap`. -/
def firstPass (env : TrapEnv) (py : PySnmp B) (st : MibState B) (data : List TrapPair) :
    Worked B TrapTable :=
  let (st, mibsLoaded) := preloadTrapMibs env py st data
  Worked.andThen (st, resolveWorkVarbinds py st.builder data) fun st resolved =>
    if mibsLoaded || resolved.unresolved.isEmpty then (st, .ok resolved)
    else retryTrapVarbindsAfterMibLoad env py st data resolved.unresolved resolved.varbindTable

/-- `_re_resolve_trap_work_if_needed`. -/
def reResolveTrapWorkIfNeeded (py : PySnmp B) (builder : B) (data : List TrapPair)
    (tt : TrapTable) : Except PyError TrapTable :=
  if tt.varbindTable.any fun vb => !vb.resolved then resolveWorkVarbinds py builder data
  else .ok tt

/-- The passes of `trap` in front of the metrics. -/
def translateTrap (env : TrapEnv) (py : PySnmp B) (st : MibState B) (data : List TrapPair) :
    Worked B TrapTable :=
  (firstPass env py st data).andThen fun st tt =>
    (st, reResolveTrapWorkIfNeeded py st.builder data tt)

/-! ### What is left over -/

/-- `_collect_processed_trap_oids`. -/
def collectProcessedTrapOids (metrics : Metrics) : List String :=
  (metrics.values.flatMap fun group =>
    (group.fields.values ++ group.metrics.values).map MetricItem.oid).filter (· ≠ "")

/-- `_varbind_table_value`; the values pysnmp gives a varbind have the method. -/
def varbindTableValue (vb : ResponseVarbind) : Except PyError String := vb.value.prettyPrint

/-- `_unprocessed_trap_varbinds`. -/
def unprocessedTrapVarbinds (table : List ResponseVarbind) (metrics : Metrics) :
    Except PyError (List TrapPair) :=
  (table.filter fun vb => vb.identity.oid ∉ collectProcessedTrapOids metrics).mapM fun vb => do
    return (vb.identity.oid, ← varbindTableValue vb)

/-- `_merge_unresolved_trap_varbinds`. -/
def mergeUnresolvedTrapVarbinds (unresolved unprocessed : List TrapPair) : List TrapPair :=
  (unresolved ++ unprocessed).eraseDups

/-- `UNRESOLVED_TRAP_GROUP_KEY`. -/
def unresolvedTrapGroupKey : String := "sc4snmp::unresolved"

/-- `_unresolved_field_name`. -/
def unresolvedFieldName (oid : String) : String := "unresolved::" ++ oid

/-- The entry of a varbind that is left over. -/
def unresolvedItem (pair : TrapPair) : MetricItem := ⟨.f, valueAsBest pair.2, pair.1⟩

/-- `_append_unresolved_trap_varbinds`. -/
def appendUnresolvedTrapVarbinds (unresolved : List TrapPair) (metrics : Metrics) : Metrics :=
  if unresolved.isEmpty then metrics
  else
    let group := (metrics.get? unresolvedTrapGroupKey).getD ⟨Dict.empty, Dict.empty, [], none⟩
    metrics.insert unresolvedTrapGroupKey
      { group with
        fields := group.fields.updateList
          (unresolved.map fun pair => (unresolvedFieldName pair.1, unresolvedItem pair)) }

/-! ### The task -/

/-- What `INCLUDE_UNRESOLVED_TRAP_VARBINDS` adds to the metrics. -/
def includeUnresolved (env : TrapEnv) (tt : TrapTable) (result : Metrics) :
    Except PyError Metrics :=
  if env.includeUnresolvedTrapVarbinds then do
    let unprocessed ← unprocessedTrapVarbinds tt.varbindTable result
    return appendUnresolvedTrapVarbinds (mergeUnresolvedTrapVarbinds tt.unresolved unprocessed)
      result
  else .ok result

/-- The metrics of a trap. -/
def trapMetrics (env : TrapEnv) (py : PySnmp B) (st : MibState B) (data : List TrapPair) :
    Worked B Metrics :=
  (translateTrap env py st data).andThen fun st tt =>
    Worked.andThen (processTrapMetrics env.config py data st tt.varbindTable Dict.empty)
      fun st result => (st, includeUnresolved env tt result)

/-- `_build_result`. -/
def buildResult (env : TrapEnv) (result : Metrics) (host : String)
    (fields : Option (Dict String String)) : TrapResult where
  result := result
  address := host
  detectchange := false
  sourcetype := env.splunkSourcetypeTraps
  fields := fields.filter fun fields => !fields.entries.isEmpty

/-- The address in the result. -/
def resultHost (env : TrapEnv) (host : String) : Except PyError String :=
  if env.resolveTrapAddress then env.resolveAddress (formatIpv4Address env host)
  else .ok (formatIpv4Address env host)

/-- `trap`. -/
def trap (env : TrapEnv) (py : PySnmp B) (st : MibState B) (work : TrapWork) :
    Worked B TrapResult :=
  (trapMetrics env py st
      (limitTrapVarbindPairs env.maxTrapVarbindsToDecode work.data)).andThen fun st result =>
    (st, do return buildResult env result (← resultHost env work.host) work.fields)

end Sc4snmp
