import Sc4snmp.Snmp.MultiBulkWalk
import Sc4snmp.Snmp.TrapResolution

/-!
# The callers of `process_snmp_data`

`Poller.run_get_request` and `Poller.run_bulk_request` of `snmp/manager.py`, which read
the answers of an agent, and `_process_trap_metrics` of `snmp/tasks.py`, which reads a
trap: each hands the varbinds to `process_snmp_data` and treats what that returns in
its own way.

What pysnmp does is a parameter.  A trap is left by the first exception that
`_resolve_trap_varbind` does not turn into a `SmiError`.

## Main definitions

* `MibState` — the MIB data a worker keeps.
* `loadMibs`, `loadNewTrapMibs` — the loads.
* `resolveWorkVarbinds` — the translation of the varbinds of a trap.
* `runGetRequest`, `runBulkRequest`, `processTrapMetrics` — the three callers.
-/

namespace Sc4snmp

/-- What `get_cmd` returns, and `multi_bulk_walk_cmd` yields. -/
structure CommandAnswer where
  errorIndication : Option ErrorIndication
  errorStatus : ℕ
  varbindTable : List ResponseVarbind

/-- The MIB index and the setting of a worker. -/
structure PollerConfig where
  mibMap : Dict String String
  /-- `IGNORE_EMPTY_VARBINDS`. -/
  ignoreEmptyVarbinds : Bool

/-- The MIB data a worker keeps between its tasks. -/
structure MibState (B : Type) where
  builder : B
  alreadyLoadedMibs : List String
  alreadyAttemptedMibs : List String

variable {B : Type}

/-! ### Loading MIBs -/

/-- `Poller.load_mibs`: the builder, and the modules that are loaded. -/
def loadMibs (py : PySnmp B) : B → List String → B × List String
  | builder, [] => (builder, [])
  | builder, mib :: mibs =>
    if mib = "" then loadMibs py builder mibs
    else
      let (builder, returned) := py.loadModules builder mib
      let (builder, loaded) := loadMibs py builder mibs
      (builder, if returned then mib :: loaded else loaded)

/-- The lines of `run_bulk_request` that load the MIBs a response asks for. -/
def MibState.load (py : PySnmp B) (st : MibState B) (mibs : List String) : MibState B :=
  let (builder, loaded) := loadMibs py st.builder mibs
  { st with builder, alreadyLoadedMibs := st.alreadyLoadedMibs ++ loaded }

/-- `_load_new_trap_mibs`: a MIB is tried once, and the result says if any was loaded. -/
def loadNewTrapMibs (py : PySnmp B) (st : MibState B) (mibNames : List String) :
    MibState B × Bool :=
  let newMibs := mibNames.eraseDups.filter (· ∉ st.alreadyAttemptedMibs)
  if newMibs.isEmpty then (st, false)
  else
    let (builder, loaded) := loadMibs py st.builder newMibs
    (⟨builder, st.alreadyLoadedMibs ++ loaded, st.alreadyAttemptedMibs ++ newMibs⟩,
      !loaded.isEmpty)

/-! ### Polls and walks -/

/-- `_any_failure_happened`, which raises when one did. -/
def anyFailureHappened (config : PollerConfig) (answer : CommandAnswer) : Except PyError Bool :=
  match answer.errorIndication with
  | some err =>
    if err = .emptyResponse ∧ config.ignoreEmptyVarbinds = true then .ok false else .error .other
  | none => if answer.errorStatus ≠ 0 then .error .other else .ok false

/-- The body of the loop of `run_get_request`; a request that raises has no answer. -/
def getAnswer (config : PollerConfig) (mapping : Dict String String) (metrics : Metrics) :
    Option CommandAnswer → Except PyError Metrics
  | none => .ok metrics
  | some answer => do
    if ← anyFailureHappened config answer then
      return metrics
    return (processSnmpData config.mibMap mapping answer.varbindTable metrics).metrics

/-- `Poller.run_get_request`, from the answers to its chunks of varbinds. -/
def runGetRequest (config : PollerConfig) (getMapping : Dict String String)
    (answers : List (Option CommandAnswer)) (metrics : Metrics) : Except PyError Metrics :=
  answers.foldlM (getAnswer config getMapping) metrics

/-- The body of the loop of `run_bulk_request`. -/
def bulkAnswer (config : PollerConfig) (py : PySnmp B) (mapping : Dict String String)
    (run : MibState B × Metrics) (answer : CommandAnswer) :
    Except PyError (MibState B × Metrics) := do
  if ← anyFailureHappened config answer then
    return run
  let (st, metrics) := run
  let processed := processSnmpData config.mibMap mapping answer.varbindTable metrics
  if processed.remotemibs.isEmpty then
    return (st, processed.metrics)
  let st := st.load py processed.remotemibs
  let table := answer.varbindTable.map (py.reread st.builder)
  return (st, (processSnmpData config.mibMap mapping table processed.metrics).metrics)

/-- `Poller.run_bulk_request`, from what its walks yield. -/
def runBulkRequest (config : PollerConfig) (py : PySnmp B) (bulkMapping : Dict String String)
    (answers : List CommandAnswer) (st : MibState B) (metrics : Metrics) :
    Except PyError (MibState B × Metrics) :=
  answers.foldlM (bulkAnswer config py bulkMapping) (st, metrics)

/-! ### Traps -/

/-- The varbinds of a trap that are translated, and the pairs that are not. -/
structure TrapTable where
  varbindTable : List ResponseVarbind
  unresolved : List (String × String)

/-- `_resolve_trap_varbind`, where `SmiError` is caught. -/
def tryResolve (py : PySnmp B) (builder : B) (pair : String × String) :
    Except PyError (Option ResponseVarbind) :=
  match resolveTrapVarbind py builder pair with
  | .ok vb => .ok (some vb)
  | .error .smiError => .ok none
  | .error (.other err) => .error err

/-- A pair goes to the one list or to the other. -/
def TrapTable.add (pair : String × String) (vb? : Option ResponseVarbind) (tt : TrapTable) :
    TrapTable :=
  match vb? with
  | some vb => { tt with varbindTable := vb :: tt.varbindTable }
  | none => { tt with unresolved := pair :: tt.unresolved }

/-- `_resolve_work_varbinds`. -/
def resolveWorkVarbinds (py : PySnmp B) (builder : B) :
    List (String × String) → Except PyError TrapTable
  | [] => .ok ⟨[], []⟩
  | pair :: workData => do
    let vb? ← tryResolve py builder pair
    return (← resolveWorkVarbinds py builder workData).add pair vb?

/-- `_TRAP_MIB_RETRY_MAX`. -/
def trapMibRetryMax : ℕ := 5

/-- The passes of `_process_trap_metrics`. -/
def trapPasses (config : PollerConfig) (py : PySnmp B) (workData : List (String × String)) :
    ℕ → MibState B → List ResponseVarbind → Metrics → MibState B × Except PyError Metrics
  | 0, st, _, metrics => (st, .ok metrics)
  | n + 1, st, table, metrics =>
    let processed := processSnmpData config.mibMap Dict.empty table metrics
    if processed.retry = false ∨ processed.remotemibs = [] then (st, .ok processed.metrics)
    else
      let (st, anyLoaded) := loadNewTrapMibs py st processed.remotemibs
      if anyLoaded = false then (st, .ok processed.metrics)
      else
        match resolveWorkVarbinds py st.builder workData with
        | .ok tt => trapPasses config py workData n st tt.varbindTable processed.metrics
        | .error err => (st, .error err)

/-- `_process_trap_metrics`. -/
def processTrapMetrics (config : PollerConfig) (py : PySnmp B) (workData : List (String × String))
    (st : MibState B) (table : List ResponseVarbind) (metrics : Metrics) :
    MibState B × Except PyError Metrics :=
  trapPasses config py workData trapMibRetryMax st table metrics

/-! ### The translation of a trap -/

/-- The translations of some varbinds, and those that have none. -/
def translations (translation : String × String → Option ResponseVarbind)
    (pairs : List (String × String)) : TrapTable where
  varbindTable := pairs.filterMap translation
  unresolved := pairs.filter fun pair => (translation pair).isNone

theorem translations_cons (translation : String × String → Option ResponseVarbind)
    (pair : String × String) (pairs : List (String × String)) :
    translations translation (pair :: pairs) =
      (translations translation pairs).add pair (translation pair) := by
  cases h : translation pair <;> simp [translations, TrapTable.add, h]

theorem tryResolve_eq_ok_iff {py : PySnmp B} {builder : B} {pair : String × String}
    {vb? : Option ResponseVarbind} :
    tryResolve py builder pair = .ok vb? ↔
      Settles py builder pair ∧ vb? = translated py builder pair := by
  unfold tryResolve Settles translated
  cases resolveTrapVarbind py builder pair with
  | ok vb => simp [Except.toOption, eq_comm]
  | error failure => cases failure <;> simp [Except.toOption, eq_comm]

/-- **The varbinds of a trap are translated** unless the translation of one raises. -/
theorem resolveWorkVarbinds_eq_ok_iff {py : PySnmp B} {builder : B}
    {workData : List (String × String)} {tt : TrapTable} :
    resolveWorkVarbinds py builder workData = .ok tt ↔
      (∀ pair ∈ workData, Settles py builder pair) ∧
        tt = translations (translated py builder) workData := by
  induction workData generalizing tt with
  | nil =>
    rw [resolveWorkVarbinds, Except.ok.injEq, eq_comm]
    exact (and_iff_right (List.forall_mem_nil _)).symm
  | cons pair workData ih =>
    rw [resolveWorkVarbinds, PyError.bind_eq_ok, List.forall_mem_cons, translations_cons]
    simp only [PyError.bind_eq_ok, tryResolve_eq_ok_iff, ih]
    constructor
    · rintro ⟨_, ⟨hpair, rfl⟩, rest, ⟨hrest, rfl⟩, h⟩
      cases h
      exact ⟨⟨hpair, hrest⟩, rfl⟩
    · rintro ⟨⟨hpair, hrest⟩, rfl⟩
      exact ⟨_, ⟨hpair, rfl⟩, _, ⟨hrest, rfl⟩, rfl⟩

end Sc4snmp
