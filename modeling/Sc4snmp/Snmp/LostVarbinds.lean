import Sc4snmp.Snmp.SnmpResponses

/-!
# Varbinds behind an unresolved one

`process_snmp_data` leaves its loop at the first varbind that is not resolved although
its MIB is known, and says so.  Whoever calls it has to run it again: the reader of
GET answers does not, the bulk walk does it once whatever the load gave, and the trap
does it as long as something new is loaded, five times at most.  What stands behind
such a varbind each time is lost.

Of each caller all that matters is the list of tables it hands to `process_snmp_data`,
which the MIB map, the MIBs tried before and the outcome of the loads determine.

## Main definitions

* `ResponseRun` — a run of one of the three callers.
* `NoneLost` — every varbind with a metric or field of its own is in the metrics.
* `InFront` — a varbind stands in front of the first one that blocks a pass.

## Main results

* `recorded_finish_iff` — what is in the metrics when a caller has finished.
* `noneLost_iff` — **none is lost exactly when each stands in front in one of the passes**.
* `noneLost_fails` — one table on which every caller loses a varbind.
-/

namespace Sc4snmp

/-- A run of one of the callers of `process_snmp_data`. -/
inductive ResponseRun (B : Type)
  | get (mapping : Dict String String) (answers : List (Option CommandAnswer)) (metrics : Metrics)
  | bulk (mapping : Dict String String) (answers : List CommandAnswer) (st : MibState B)
      (metrics : Metrics)
  | trap (workData : List (String × String)) (table : List ResponseVarbind) (st : MibState B)
      (metrics : Metrics)

variable {B : Type}

namespace ResponseRun

/-- The metrics before the run. -/
def before : ResponseRun B → Metrics
  | get _ _ metrics => metrics
  | bulk _ _ _ metrics => metrics
  | trap _ _ _ metrics => metrics

/-- The metrics when the caller finishes, unless it raises. -/
def finish (config : PollerConfig) (py : PySnmp B) : ResponseRun B → Except PyError Metrics
  | get mapping answers metrics => runGetRequest config mapping answers metrics
  | bulk mapping answers st metrics =>
    (runBulkRequest config py mapping answers st metrics).map Prod.snd
  | trap workData table st metrics => (processTrapMetrics config py workData st table metrics).2

/-- The tables as they arrive. -/
def arrived : ResponseRun B → List (List ResponseVarbind)
  | get _ answers _ => answers.filterMap (Option.map CommandAnswer.varbindTable)
  | bulk _ answers _ _ => answers.map CommandAnswer.varbindTable
  | trap _ table _ _ => [table]

end ResponseRun

/-! ### The passes over the tables -/

/-- The tables of a bulk walk: a response whose loop asks for a MIB is read twice. -/
def bulkPasses (config : PollerConfig) (py : PySnmp B) :
    MibState B → List CommandAnswer → List (List ResponseVarbind)
  | _, [] => []
  | st, answer :: answers =>
    let mibs := requestedMibs config.mibMap answer.varbindTable
    if mibs = [] then answer.varbindTable :: bulkPasses config py st answers
    else
      let st := st.load py mibs
      answer.varbindTable :: answer.varbindTable.map (py.reread st.builder) ::
        bulkPasses config py st answers

/-- The tables of a trap: it is read again as long as a MIB is asked for and loads. -/
def trapTables (config : PollerConfig) (py : PySnmp B) (workData : List (String × String)) :
    ℕ → MibState B → List ResponseVarbind → List (List ResponseVarbind)
  | 0, _, _ => []
  | n + 1, st, table =>
    let mibs := requestedMibs config.mibMap table
    if mibs = [] then [table]
    else
      let (st, anyLoaded) := loadNewTrapMibs py st mibs
      if anyLoaded = false then [table]
      else table :: trapTables config py workData n st
        (workData.filterMap (translated py st.builder))

/-- The tables a run hands to `process_snmp_data`. -/
def ResponseRun.passes (config : PollerConfig) (py : PySnmp B) :
    ResponseRun B → List (List ResponseVarbind)
  | get _ answers _ => answers.filterMap (Option.map CommandAnswer.varbindTable)
  | bulk _ answers st _ => bulkPasses config py st answers
  | trap workData table st _ => trapTables config py workData trapMibRetryMax st table

/-- What several passes leave in the metrics. -/
def readTables (mibMap mapping : Dict String String) (tables : List (List ResponseVarbind))
    (metrics : Metrics) : Metrics :=
  tables.foldl (fun metrics table => (processSnmpData mibMap mapping table metrics).metrics) metrics

/-- Every varbind that has a metric or field of its own is in the metrics. -/
def NoneLost (tables : List (List ResponseVarbind)) (metrics : Metrics) : Prop :=
  ∀ table ∈ tables, ∀ vb ∈ table, vb.Carries → Recorded metrics vb

/-- The varbind, or one with the same entry, stands in front of the first varbind that is
unresolved with a known MIB. -/
def InFront (mibMap : Dict String String) (table : List ResponseVarbind) (vb : ResponseVarbind) :
    Prop :=
  ∃ vb' ∈ reportedPart mibMap table, vb'.Carries ∧ SameEntry vb' vb

section Passes

variable {config : PollerConfig} {py : PySnmp B} {mapping mibMap : Dict String String}
  {metrics metrics' : Metrics} {vb : ResponseVarbind}

theorem recorded_readTables_iff (tables : List (List ResponseVarbind)) (metrics : Metrics) :
    Recorded (readTables mibMap mapping tables metrics) vb ↔
      Recorded metrics vb ∨ ∃ table ∈ tables, InFront mibMap table vb := by
  induction tables generalizing metrics with
  | nil => simp [readTables]
  | cons table tables ih =>
    have hstep := ih (processSnmpData mibMap mapping table metrics).metrics
    rw [recorded_processSnmpData_iff, or_assoc] at hstep
    rw [List.exists_mem_cons_iff]
    exact hstep

/-- A check that returns finds no failure. -/
theorem anyFailureHappened_ok {answer : CommandAnswer} {failed : Bool}
    (h : anyFailureHappened config answer = .ok failed) : failed = false := by
  unfold anyFailureHappened at h
  split at h
  · split at h <;> cases h
    rfl
  · split at h <;> cases h
    rfl

/-- The GET answers are read once each. -/
theorem runGetRequest_eq (answers : List (Option CommandAnswer)) (metrics : Metrics)
    (h : runGetRequest config mapping answers metrics = .ok metrics') :
    metrics' = readTables config.mibMap mapping
      (answers.filterMap (Option.map CommandAnswer.varbindTable)) metrics := by
  unfold runGetRequest at h
  induction answers generalizing metrics with
  | nil =>
    cases h
    rfl
  | cons answer answers ih =>
    rw [List.foldlM_cons] at h
    obtain ⟨metrics₁, hfirst, h⟩ := PyError.bind_eq_ok.mp h
    cases answer with
    | none =>
      cases hfirst
      exact ih metrics h
    | some answer =>
      obtain ⟨failed, hfailed, hfirst⟩ := PyError.bind_eq_ok.mp hfirst
      rw [anyFailureHappened_ok hfailed] at hfirst
      cases hfirst
      exact ih _ h

/-- What one response of a bulk walk leaves. -/
theorem bulkAnswer_eq {st st' : MibState B} {answer : CommandAnswer}
    (h : bulkAnswer config py mapping (st, metrics) answer = .ok (st', metrics')) :
    metrics' = readTables config.mibMap mapping
        (if requestedMibs config.mibMap answer.varbindTable = [] then [answer.varbindTable]
        else [answer.varbindTable, answer.varbindTable.map (py.reread st'.builder)]) metrics ∧
      st' = if requestedMibs config.mibMap answer.varbindTable = [] then st
        else st.load py (requestedMibs config.mibMap answer.varbindTable) := by
  obtain ⟨failed, hfailed, h⟩ := PyError.bind_eq_ok.mp h
  rw [anyFailureHappened_ok hfailed] at h
  simp only [Bool.false_eq_true, if_false, processSnmpData_requests.2, List.isEmpty_iff] at h
  by_cases hmibs : requestedMibs config.mibMap answer.varbindTable = []
  · rw [if_pos hmibs] at h ⊢
    cases h
    exact ⟨rfl, (if_pos hmibs).symm⟩
  · rw [if_neg hmibs] at h ⊢
    cases h
    exact ⟨rfl, (if_neg hmibs).symm⟩

/-- The responses of a bulk walk are read once, or twice around a load. -/
theorem runBulkRequest_eq (answers : List CommandAnswer) {st st' : MibState B} (metrics : Metrics)
    (h : runBulkRequest config py mapping answers st metrics = .ok (st', metrics')) :
    metrics' = readTables config.mibMap mapping (bulkPasses config py st answers) metrics := by
  unfold runBulkRequest at h
  induction answers generalizing st metrics with
  | nil =>
    cases h
    rfl
  | cons answer answers ih =>
    rw [List.foldlM_cons] at h
    obtain ⟨⟨st₁, metrics₁⟩, hfirst, h⟩ := PyError.bind_eq_ok.mp h
    obtain ⟨hmetrics, hst⟩ := bulkAnswer_eq hfirst
    rw [ih metrics₁ h, hmetrics]
    rw [bulkPasses]
    by_cases hmibs : requestedMibs config.mibMap answer.varbindTable = []
    · rw [if_pos hmibs] at hst ⊢
      rw [if_pos hmibs, hst]
      rfl
    · rw [if_neg hmibs] at hst ⊢
      rw [if_neg hmibs, hst]
      rfl

/-- The passes over a trap. -/
theorem trapPasses_eq (workData : List (String × String)) (n : ℕ) (st : MibState B)
    (table : List ResponseVarbind) (metrics : Metrics)
    (h : (trapPasses config py workData n st table metrics).2 = .ok metrics') :
    metrics' = readTables config.mibMap Dict.empty (trapTables config py workData n st table)
      metrics := by
  induction n generalizing st table metrics with
  | zero =>
    cases h
    rfl
  | succ n ih =>
    rw [trapPasses] at h
    rw [trapTables]
    simp only [processSnmpData_requests.1, processSnmpData_requests.2] at h
    by_cases hmibs : requestedMibs config.mibMap table = []
    · rw [if_pos (Or.inr hmibs)] at h
      rw [if_pos hmibs]
      cases h
      rfl
    have hany : table.any (fun vb => vb.blocks config.mibMap) ≠ false := fun h =>
      hmibs (requestedMibs_of_any h)
    rw [if_neg (not_or.mpr ⟨hany, hmibs⟩)] at h
    rw [if_neg hmibs]
    dsimp only at h ⊢
    split at h
    · next hloaded =>
      rw [if_pos hloaded]
      cases h
      rfl
    · next hloaded =>
      rw [if_neg hloaded]
      split at h
      · next tt htt =>
        obtain ⟨-, rfl⟩ := resolveWorkVarbinds_eq_ok_iff.mp htt
        exact ih _ _ _ h
      · cases h

/-- **What is in the metrics when a caller has finished**: what was there before, and
what stands in front in one of its passes. -/
theorem recorded_finish_iff {run : ResponseRun B} (h : run.finish config py = .ok metrics') :
    Recorded metrics' vb ↔
      Recorded run.before vb ∨ ∃ table ∈ run.passes config py, InFront config.mibMap table vb := by
  cases run with
  | get mapping answers metrics =>
    rw [runGetRequest_eq answers metrics h]
    exact recorded_readTables_iff _ _
  | bulk mapping answers st metrics =>
    simp only [ResponseRun.finish] at h
    cases hrun : runBulkRequest config py mapping answers st metrics with
    | error err =>
      rw [hrun] at h
      cases h
    | ok result =>
      rw [hrun] at h
      cases h
      rw [runBulkRequest_eq answers metrics hrun]
      exact recorded_readTables_iff _ _
  | trap workData table st metrics =>
    rw [trapPasses_eq workData trapMibRetryMax st table metrics h]
    exact recorded_readTables_iff _ _

/-- **No varbind is lost exactly when** each one that arrives resolved, with a metric or
field of its own, is in the metrics before or stands in front in one of the passes. -/
theorem noneLost_iff (config : PollerConfig) (py : PySnmp B) (run : ResponseRun B)
    (metrics' : Metrics) (h : run.finish config py = .ok metrics') :
    NoneLost run.arrived metrics' ↔
      ∀ table ∈ run.arrived, ∀ vb ∈ table, vb.Carries →
        Recorded run.before vb ∨
          ∃ pass ∈ run.passes config py, InFront config.mibMap pass vb := by
  unfold NoneLost
  simp only [recorded_finish_iff h]

end Passes

/-! ### A table on which each caller loses a varbind -/

/-- pysnmp keeps the translation of what arrived resolved. -/
structure KeepsTranslations (py : PySnmp B) (run : ResponseRun B) : Prop where
  reread : ∀ builder vb, vb.resolved = true → py.reread builder vb = vb
  resolve : ∀ workData table st metrics, run = .trap workData table st metrics →
    ∀ vb ∈ table, vb.resolved = true →
      ∃ pair ∈ workData, ∀ builder, resolveTrapVarbind py builder pair = .ok vb

/-- The value of an integer object. -/
def integerValue (text : String) : ResponseValue := ⟨"Integer32", .ok (), .ok text⟩

/-- An object of a vendor whose MIB is not loaded yet. -/
def vendorObject : ResponseVarbind where
  identity := ⟨"1.3.6.1.4.1.9.2.1.58.0", "SNMPv2-SMI::enterprises.9.2.1.58.0", "SNMPv2-SMI",
    "enterprises", []⟩
  value := integerValue "7"

/-- The number of interfaces. -/
def ifNumber : ResponseVarbind where
  identity := ⟨"1.3.6.1.2.1.2.1.0", "IF-MIB::ifNumber.0", "IF-MIB", "ifNumber",
    [.tuple [.int 0]]⟩
  value := integerValue "4"

/-- The MIB index knows the vendor's MIB. -/
def vendorConfig : PollerConfig where
  mibMap := Dict.ofList [("1.3.6.1.4.1.9.2.1", "OLD-CISCO-CPU-MIB")]
  ignoreEmptyVarbinds := false

/-- MIB modules never load, and what resolved once resolves the same way. -/
def failingLoads : PySnmp Unit where
  loadModules := fun builder _ => (builder, false)
  reread := fun _ vb => vb
  resolveObject := fun _ name _ =>
    if name = vendorObject.identity.oid then .ok vendorObject
    else if name = ifNumber.identity.oid then .ok ifNumber
    else .error .smiError
  nodeLocation := fun _ _ => .error .smiError
  resolveIdentity := fun _ _ => .error .smiError
  resolveLocated := fun _ _ _ => .error .smiError

/-- The answer with the two objects. -/
def vendorAnswer : CommandAnswer := ⟨none, 0, [vendorObject, ifNumber]⟩

/-- The worker before its first task. -/
def freshMibState : MibState Unit := ⟨(), [], []⟩

/-- A GET of the two objects. -/
def vendorGet : ResponseRun Unit := .get Dict.empty [some vendorAnswer] Dict.empty

/-- A bulk walk that gets them in one response. -/
def vendorBulk : ResponseRun Unit := .bulk Dict.empty [vendorAnswer] freshMibState Dict.empty

/-- A trap that carries them. -/
def vendorTrap : ResponseRun Unit :=
  .trap [("1.3.6.1.4.1.9.2.1.58.0", "7"), ("1.3.6.1.2.1.2.1.0", "4")] [vendorObject, ifNumber]
    freshMibState Dict.empty

theorem noneLost_iff_vendorGet :
    NoneLost vendorGet.arrived Dict.empty ↔
      ∀ table ∈ vendorGet.arrived, ∀ vb ∈ table, vb.Carries →
        Recorded vendorGet.before vb ∨
          ∃ pass ∈ vendorGet.passes vendorConfig failingLoads,
            InFront vendorConfig.mibMap pass vb :=
  noneLost_iff vendorConfig failingLoads vendorGet Dict.empty (by rfl)

/-- A varbind that is not in the metrics of a run is lost. -/
theorem not_noneLost {tables : List (List ResponseVarbind)} {table : List ResponseVarbind}
    {metrics : Metrics} {vb : ResponseVarbind} (htable : table ∈ tables) (hvb : vb ∈ table)
    (hcarries : vb.Carries) (h : ¬ Recorded metrics vb) : ¬ NoneLost tables metrics :=
  fun hnone => h (hnone table htable vb hvb hcarries)

/-- The run finishes with a varbind lost, although pysnmp keeps its translation. -/
def LosesVarbind (config : PollerConfig) (py : PySnmp B) (run : ResponseRun B) : Prop :=
  KeepsTranslations py run ∧
    ∃ metrics', run.finish config py = .ok metrics' ∧ ¬ NoneLost run.arrived metrics'

/-- The number of interfaces, behind the vendor's object, is lost by every caller. -/
theorem noneLost_fails :
    LosesVarbind vendorConfig failingLoads vendorGet ∧
      LosesVarbind vendorConfig failingLoads vendorBulk ∧
      LosesVarbind vendorConfig failingLoads vendorTrap := by
  have hcarries : ifNumber.Carries := by decide
  have hlost : ¬ Recorded Dict.empty ifNumber := by decide
  have hkeeps : ∀ builder vb, vb.resolved = true → failingLoads.reread builder vb = vb :=
    fun _ _ _ => rfl
  refine ⟨?_, ?_, ?_⟩
  · refine ⟨⟨hkeeps, fun _ _ _ _ h => by cases h⟩, Dict.empty, by rfl, ?_⟩
    exact not_noneLost List.mem_cons_self (by simp [vendorAnswer]) hcarries hlost
  · refine ⟨⟨hkeeps, fun _ _ _ _ h => by cases h⟩, Dict.empty, by rfl, ?_⟩
    exact not_noneLost List.mem_cons_self (by simp [vendorAnswer]) hcarries hlost
  · refine ⟨⟨hkeeps, ?_⟩, Dict.empty, by rfl, ?_⟩
    · intro workData table st metrics h vb hvb hresolved
      cases h
      simp only [List.mem_cons, List.not_mem_nil, or_false] at hvb
      rcases hvb with rfl | rfl
      · exact absurd hresolved (by decide)
      · exact ⟨("1.3.6.1.2.1.2.1.0", "4"), by simp, fun _ => rfl⟩
    · exact not_noneLost List.mem_cons_self (by simp) hcarries hlost

end Sc4snmp
