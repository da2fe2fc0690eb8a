import Mathlib.Data.List.Dedup
import Sc4snmp.Lib.Run
import Sc4snmp.Snmp.MergedProfiles
import Sc4snmp.Snmp.MibLookup
import Sc4snmp.Snmp.Trap

/-!
# The MIBs a trap worker loads

The task `trap` loads MIBs at three places: in front of the translation, for the varbinds that
were not translated, and up to five times while the metrics are made.  Loading a module may ask
the MIB server, and one that is not there is not found every time.  A worker remembers in
`already_attempted_mibs` what its traps have tried; the modules that `Poller.__init__` loads are
not among them.

What a worker asks of `load_modules` is recorded in a log beside its builder.  The log changes
nothing, since pysnmp is a parameter of the model: whatever relates two builders relates what a
trap does with them.

## Main definitions

* `PySnmp.Simulates` — one pysnmp does to the images of builders what another does to them.
* `PySnmp.logged` — pysnmp with a log of the modules it was asked for.
* `loadInitialMibs`, `trapStep`, `trapResults` — the life of a worker.
* `LoadsOnce` — the invariant of a worker.

## Main results

* `trap_map` — a trap commutes with a simulation, and so with dropping the log.
* `trap_induction` — the rule for what loads keep.
* `traps_load_once` — **the traps of a worker ask for each module at most once**, only for
  modules of the MIB index, and the worker knows which ones they have loaded.
-/

namespace Sc4snmp

variable {B C : Type}

/-! ### Simulations of pysnmp -/

/-- One pysnmp does to the images of builders what the other does to the builders. -/
structure PySnmp.Simulates (py : PySnmp B) (py' : PySnmp C) (f : B → C) : Prop where
  loadModules : ∀ b mib, py'.loadModules (f b) mib =
    (f (py.loadModules b mib).1, (py.loadModules b mib).2)
  resolveObject : ∀ b, py'.resolveObject (f b) = py.resolveObject b
  nodeLocation : ∀ b, py'.nodeLocation (f b) = py.nodeLocation b
  resolveIdentity : ∀ b, py'.resolveIdentity (f b) = py.resolveIdentity b
  resolveLocated : ∀ b, py'.resolveLocated (f b) = py.resolveLocated b

/-- The MIB data over the image of the builder. -/
def MibState.map (f : B → C) (st : MibState B) : MibState C :=
  ⟨f st.builder, st.alreadyLoadedMibs, st.alreadyAttemptedMibs⟩

/-- What a part of the task leaves, over the image of the builder. -/
def Worked.map {α : Type} (f : B → C) (w : Worked B α) : Worked C α := (w.1.map f, w.2)

theorem Worked.andThen_map {α β : Type} {f : B → C} {g : MibState B → α → Worked B β}
    {g' : MibState C → α → Worked C β} (hg : ∀ st a, g' (st.map f) a = (g st a).map f)
    (w : Worked B α) : (w.map f).andThen g' = (w.andThen g).map f := by
  obtain ⟨st, result⟩ := w
  cases result with
  | error err => rfl
  | ok a => exact hg st a

section Simulation

variable {py : PySnmp B} {py' : PySnmp C} {f : B → C}

theorem loadMibs_map (h : py.Simulates py' f) (b : B) (mibs : List String) :
    loadMibs py' (f b) mibs = (f (loadMibs py b mibs).1, (loadMibs py b mibs).2) := by
  induction mibs generalizing b with
  | nil => rfl
  | cons mib mibs ih =>
    unfold loadMibs
    split
    · exact ih b
    · simp only [h.loadModules, ih]

theorem loadNewTrapMibs_map (h : py.Simulates py' f) (st : MibState B) (names : List String) :
    loadNewTrapMibs py' (st.map f) names =
      ((loadNewTrapMibs py st names).1.map f, (loadNewTrapMibs py st names).2) := by
  unfold loadNewTrapMibs MibState.map
  dsimp only
  split
  · rfl
  · rw [loadMibs_map h]

theorem resolveTrapVarbind_map (h : py.Simulates py' f) (b : B) (pair : TrapPair) :
    resolveTrapVarbind py' (f b) pair = resolveTrapVarbind py b pair := by
  unfold resolveTrapVarbind locateTrapVarbind resolveCoerced objectTypeFromResolvedIdentity
  rw [h.resolveObject, h.nodeLocation, h.resolveIdentity, h.resolveLocated]

theorem resolveWorkVarbinds_map (h : py.Simulates py' f) (b : B) (data : List TrapPair) :
    resolveWorkVarbinds py' (f b) data = resolveWorkVarbinds py b data := by
  induction data with
  | nil => rfl
  | cons pair data ih =>
    unfold resolveWorkVarbinds tryResolve
    rw [resolveTrapVarbind_map h, ih]

theorem loadDeferredMibs_map (h : py.Simulates py' f) (env : TrapEnv) (st : MibState B)
    (notTranslated : List TrapPair) :
    loadDeferredMibs env py' (st.map f) notTranslated =
      ((loadDeferredMibs env py st notTranslated).1.map f,
        (loadDeferredMibs env py st notTranslated).2) := by
  unfold loadDeferredMibs
  dsimp only
  split
  · rfl
  · exact loadNewTrapMibs_map h st _

theorem retryTrapVarbindsAfterMibLoad_map (h : py.Simulates py' f) (env : TrapEnv)
    (st : MibState B) (data notTranslated : List TrapPair) (table : List ResponseVarbind) :
    retryTrapVarbindsAfterMibLoad env py' (st.map f) data notTranslated table =
      (retryTrapVarbindsAfterMibLoad env py st data notTranslated table).map f := by
  have hbuilder : ∀ st : MibState B, (st.map f).builder = f st.builder := fun _ => rfl
  unfold retryTrapVarbindsAfterMibLoad
  dsimp only
  rw [loadDeferredMibs_map h]
  dsimp only
  rw [hbuilder, resolveWorkVarbinds_map h, resolveWorkVarbinds_map h]
  rfl

theorem firstPass_map (h : py.Simulates py' f) (env : TrapEnv) (st : MibState B)
    (data : List TrapPair) :
    firstPass env py' (st.map f) data = (firstPass env py st data).map f := by
  have hbuilder : ∀ st : MibState B, (st.map f).builder = f st.builder := fun _ => rfl
  unfold firstPass preloadTrapMibs
  dsimp only
  rw [loadNewTrapMibs_map h]
  dsimp only
  rw [hbuilder, resolveWorkVarbinds_map h, ← Worked.andThen_map]
  · rfl
  · intro st resolved
    split
    · rfl
    · exact retryTrapVarbindsAfterMibLoad_map h env st data _ _

theorem translateTrap_map (h : py.Simulates py' f) (env : TrapEnv) (st : MibState B)
    (data : List TrapPair) :
    translateTrap env py' (st.map f) data = (translateTrap env py st data).map f := by
  unfold translateTrap
  rw [firstPass_map h, Worked.andThen_map]
  intro st tt
  show (st.map f, reResolveTrapWorkIfNeeded py' (f st.builder) data tt) = _
  unfold reResolveTrapWorkIfNeeded
  rw [resolveWorkVarbinds_map h]
  rfl

theorem trapPasses_map (h : py.Simulates py' f) (config : PollerConfig) (data : List TrapPair)
    (n : ℕ) (st : MibState B) (table : List ResponseVarbind) (metrics : Metrics) :
    trapPasses config py' data n (st.map f) table metrics =
      Worked.map f (trapPasses config py data n st table metrics) := by
  induction n generalizing st table metrics with
  | zero => rfl
  | succ n ih =>
    have hbuilder : ∀ st : MibState B, (st.map f).builder = f st.builder := fun _ => rfl
    unfold trapPasses
    dsimp only
    split
    · rfl
    · rw [loadNewTrapMibs_map h]
      dsimp only
      split
      · rfl
      · rw [hbuilder, resolveWorkVarbinds_map h]
        split
        · exact ih _ _ _
        · rfl

/-- **A trap commutes with a simulation.** -/
theorem trap_map (h : py.Simulates py' f) (env : TrapEnv) (st : MibState B) (work : TrapWork) :
    trap env py' (st.map f) work = (trap env py st work).map f := by
  unfold trap trapMetrics processTrapMetrics
  rw [translateTrap_map h, ← Worked.andThen_map, ← Worked.andThen_map]
  · intro st tt
    rw [trapPasses_map h, Worked.andThen_map]
    exact fun _ _ => rfl
  · exact fun _ _ => rfl

end Simulation

/-! ### What is asked of pysnmp -/

/-- The modules that were asked for, each with whether it was loaded. -/
abbrev LoadLog := List (String × Bool)

/-- pysnmp with a log of the modules it was asked for. -/
def PySnmp.logged (py : PySnmp B) : PySnmp (B × LoadLog) where
  loadModules b mib :=
    let (builder, returned) := py.loadModules b.1 mib
    ((builder, b.2 ++ [(mib, returned)]), returned)
  reread b := py.reread b.1
  resolveObject b := py.resolveObject b.1
  nodeLocation b := py.nodeLocation b.1
  resolveIdentity b := py.resolveIdentity b.1
  resolveLocated b := py.resolveLocated b.1

/-- The log changes nothing. -/
theorem logged_simulates (py : PySnmp B) : py.logged.Simulates py Prod.fst where
  loadModules := fun _ _ => rfl
  resolveObject := fun _ => rfl
  nodeLocation := fun _ => rfl
  resolveIdentity := fun _ => rfl
  resolveLocated := fun _ => rfl

/-- The log of a worker. -/
def MibState.log (st : MibState (B × LoadLog)) : LoadLog := st.builder.2

/-- What `load_mibs` asks for. -/
theorem loadMibs_logged (py : PySnmp B) (b : B × LoadLog) (mibs : List String) :
    ∃ asked : LoadLog, (loadMibs py.logged b mibs).1.2 = b.2 ++ asked ∧
      asked.map Prod.fst = mibs.filter (· ≠ "") ∧
      ∀ mib, mib ∈ (loadMibs py.logged b mibs).2 ↔ (mib, true) ∈ asked := by
  induction mibs generalizing b with
  | nil => exact ⟨[], (List.append_nil _).symm, rfl, by simp [loadMibs]⟩
  | cons mib mibs ih =>
    unfold loadMibs
    by_cases hmib : mib = ""
    · rw [if_pos hmib, List.filter_cons_of_neg (by simpa using hmib)]
      exact ih b
    · rw [if_neg hmib, List.filter_cons_of_pos (by simpa using hmib)]
      obtain ⟨asked, hlog, hnames, hloaded⟩ := ih (py.logged.loadModules b mib).1
      refine ⟨(mib, (py.loadModules b.1 mib).2) :: asked, ?_, ?_, fun m => ?_⟩
      · rw [hlog]
        show b.2 ++ [(mib, (py.loadModules b.1 mib).2)] ++ asked = _
        rw [List.append_assoc, List.singleton_append]
      · rw [List.map_cons, hnames]
      · rw [List.mem_cons, ← hloaded, Prod.mk.injEq]
        show m ∈ (if (py.loadModules b.1 mib).2 = true then _ else _) ↔ _
        cases (py.loadModules b.1 mib).2 <;> simp

/-! ### What loads keep -/

/-- A MIB that is known is one of the index. -/
theorem mem_values_of_isMibKnown {mibMap : Dict String String} {oid : String}
    (h : (isMibKnown mibMap oid).1 = true) : (isMibKnown mibMap oid).2 ∈ mibMap.values := by
  obtain ⟨r, hr, hknown⟩ := isMibKnown_longest mibMap oid
  rw [hknown] at h ⊢
  cases hr with
  | found _ _ hp _ =>
    exact Dict.mem_values_iff.mpr ⟨_, hp⟩
  | absent _ => cases h

theorem mem_values_of_knownMibs {mibMap : Dict String String} {oids : List String} {mib : String}
    (h : mib ∈ knownMibs mibMap oids) : mib ∈ mibMap.values := by
  obtain ⟨oid, -, hmib⟩ := List.mem_filterMap.mp h
  dsimp only at hmib
  split at hmib
  · next hfound =>
    cases hmib
    exact mem_values_of_isMibKnown hfound
  · cases hmib

theorem mem_values_of_requestedMibs {mibMap : Dict String String} {table : List ResponseVarbind}
    {mib : String} (h : mib ∈ requestedMibs mibMap table) : mib ∈ mibMap.values := by
  unfold requestedMibs at h
  split at h
  · cases h
  · next vb hvb =>
    have hfound : (isMibKnown mibMap vb.identity.oid).1 = true := by
      have hblocks := List.find?_some hvb
      simp only [ResponseVarbind.blocks, Bool.and_eq_true] at hblocks
      exact hblocks.2
    unfold findNewMibs at h
    dsimp only at h
    split at h
    · rw [List.nil_append, List.mem_singleton] at h
      exact h ▸ mem_values_of_isMibKnown hfound
    · cases h

section Induction

variable {env : TrapEnv} {py : PySnmp B} {I : MibState B → Prop}

/-- The property is kept by every load of MIBs of the index. -/
def KeptByLoads (env : TrapEnv) (py : PySnmp B) (I : MibState B → Prop) : Prop :=
  ∀ st names, (∀ mib ∈ names, mib ∈ env.config.mibMap.values) → I st →
    I (loadNewTrapMibs py st names).1

/-- What a part of the task and the parts behind it keep. -/
theorem Worked.andThen_induction {α β : Type} {w : Worked B α} {f : MibState B → α → Worked B β}
    (hw : I w.1) (hf : ∀ st a, I st → I (f st a).1) : I (w.andThen f).1 := by
  obtain ⟨st, result⟩ := w
  cases result with
  | error err => exact hw
  | ok a => exact hf st a hw

theorem firstPass_induction (hload : KeptByLoads env py I) {st : MibState B} (hst : I st)
    (data : List TrapPair) : I (firstPass env py st data).1 := by
  have hordered : ∀ (st : MibState B) oids, I st →
      I (loadNewTrapMibs py st (env.setOrder (knownMibs env.config.mibMap oids))).1 := by
    intro st oids
    refine hload st _ fun mib hmib => ?_
    exact mem_values_of_knownMibs ((env.setOrder_perm _).mem_iff.mp hmib)
  have hpreload : I (preloadTrapMibs env py st data).1 := hordered st _ hst
  unfold firstPass
  generalize preloadTrapMibs env py st data = preloaded at hpreload
  obtain ⟨st, mibsLoaded⟩ := preloaded
  refine Worked.andThen_induction hpreload fun st resolved hst => ?_
  split
  · exact hst
  · show I (loadDeferredMibs env py st resolved.unresolved).1
    unfold loadDeferredMibs
    dsimp only
    split
    · exact hst
    · exact hordered st _ hst

theorem trapPasses_induction (hload : KeptByLoads env py I) (data : List TrapPair) (n : ℕ)
    {st : MibState B} (hst : I st) (table : List ResponseVarbind) (metrics : Metrics) :
    I (trapPasses env.config py data n st table metrics).1 := by
  induction n generalizing st table metrics with
  | zero => exact hst
  | succ n ih =>
    unfold trapPasses
    dsimp only
    have hnext : I (loadNewTrapMibs py st
        (processSnmpData env.config.mibMap Dict.empty table metrics).remotemibs).1 := by
      refine hload st _ (fun mib hmib => ?_) hst
      rw [processSnmpData_requests.2] at hmib
      exact mem_values_of_requestedMibs hmib
    split
    · exact hst
    · split
      · exact hnext
      · split
        · exact ih hnext _ _
        · exact hnext

/-- **The rule for what a trap keeps of the MIB data**: whatever its loads keep. -/
theorem trap_induction (hload : KeptByLoads env py I) {st : MibState B} (hst : I st)
    (work : TrapWork) : I (trap env py st work).1 := by
  refine Worked.andThen_induction (Worked.andThen_induction (Worked.andThen_induction
    (firstPass_induction hload hst _) ?_) fun st tt hst => ?_) ?_
  · exact fun _ _ hst => hst
  · exact Worked.andThen_induction (trapPasses_induction hload _ _ hst _ _) fun _ _ hst => hst
  · exact fun _ _ hst => hst

end Induction

/-! ### The life of a worker -/

/-- `DEFAULT_STANDARD_MIBS`. -/
def defaultStandardMibs : List String :=
  ["HOST-RESOURCES-MIB", "IF-MIB", "IP-MIB", "SNMPv2-MIB", "TCP-MIB", "UDP-MIB"]

/-- The loads of `Poller.__init__`; one that raises ends the worker. -/
def loadStandardMibs (py : PySnmp B) : B → List String → Option B
  | builder, [] => some builder
  | builder, mib :: mibs =>
    match py.loadModules builder mib with
    | (builder, true) => loadStandardMibs py builder mibs
    | (_, false) => none

/-- The MIB data that `Poller.__init__` leaves, from a builder with the protocol MIBs. -/
def loadInitialMibs (py : PySnmp B) (builder : B) : Option (MibState B) :=
  (loadStandardMibs py builder defaultStandardMibs).map fun builder => ⟨builder, [], []⟩

theorem loadStandardMibs_logged (py : PySnmp B) (b b' : B × LoadLog) (mibs : List String)
    (h : loadStandardMibs py.logged b mibs = some b') :
    b'.2 = b.2 ++ mibs.map (fun mib => (mib, true)) ∧
      loadStandardMibs py b.1 mibs = some b'.1 := by
  induction mibs generalizing b with
  | nil =>
    cases h
    exact ⟨(List.append_nil _).symm, rfl⟩
  | cons mib mibs ih =>
    rw [loadStandardMibs] at h ⊢
    cases hload : py.loadModules b.1 mib with
    | mk builder returned =>
      have hlogged : py.logged.loadModules b mib =
          ((builder, b.2 ++ [(mib, returned)]), returned) := by
        show (let (builder, returned) := py.loadModules b.1 mib
          ((builder, b.2 ++ [(mib, returned)]), returned)) = _
        rw [hload]
      rw [hlogged] at h
      cases returned with
      | false => cases h
      | true =>
        obtain ⟨hlog, hloaded⟩ := ih _ h
        refine ⟨?_, hloaded⟩
        rw [hlog, List.append_assoc]
        rfl

/-- What the traps of a worker have asked for since a log, and what it remembers of that. -/
structure LoadsOnce (index : List String) (start asked : LoadLog) (st : MibState (B × LoadLog)) :
    Prop where
  log : st.log = start ++ asked
  once : (asked.map Prod.fst).Nodup
  indexed : ∀ mib ∈ asked.map Prod.fst, mib ∈ index
  attempted : ∀ mib ∈ asked.map Prod.fst, mib ∈ st.alreadyAttemptedMibs
  loaded : ∀ mib, mib ∈ st.alreadyLoadedMibs ↔ (mib, true) ∈ asked

theorem loadsOnce_loadNewTrapMibs (env : TrapEnv) (py : PySnmp B) (start : LoadLog) :
    KeptByLoads env py.logged fun st =>
      ∃ asked, LoadsOnce env.config.mibMap.values start asked st := by
  rintro st names hnames ⟨old, h⟩
  unfold loadNewTrapMibs
  dsimp only
  split
  · exact ⟨old, h⟩
  · obtain ⟨asked, hlog, hasked, hloaded⟩ := loadMibs_logged py st.builder
      (names.eraseDups.filter (· ∉ st.alreadyAttemptedMibs))
    -- what is asked for is new, and is asked for once
    have hsub : ∀ mib ∈ asked.map Prod.fst,
        mib ∈ names ∧ mib ∉ st.alreadyAttemptedMibs := by
      intro mib hmib
      rw [hasked, List.mem_filter, List.mem_filter, List.mem_eraseDups] at hmib
      simpa using hmib.1
    have hnodup : (asked.map Prod.fst).Nodup := by
      rw [hasked]
      exact ((nodup_eraseDups _).filter _).filter _
    have hnames' : ∀ mib ∈ asked.map Prod.fst,
        mib ∈ names.eraseDups.filter (· ∉ st.alreadyAttemptedMibs) := by
      intro mib hmib
      rw [hasked] at hmib
      exact List.mem_of_mem_filter hmib
    refine ⟨old ++ asked, ?_, ?_, ?_, ?_, fun mib => ?_⟩
    · show (loadMibs py.logged st.builder _).1.2 = _
      rw [hlog, ← List.append_assoc, ← h.log]
      rfl
    · rw [List.map_append]
      refine h.once.append hnodup fun mib hold hnew => ?_
      exact (hsub mib hnew).2 (h.attempted mib hold)
    · rw [List.map_append, List.forall_mem_append]
      exact ⟨h.indexed, fun mib hmib => hnames mib (hsub mib hmib).1⟩
    · rw [List.map_append, List.forall_mem_append]
      exact ⟨fun mib hmib => List.mem_append_left _ (h.attempted mib hmib),
        fun mib hmib => List.mem_append_right _ (hnames' mib hmib)⟩
    · show mib ∈ st.alreadyLoadedMibs ++ (loadMibs py.logged st.builder _).2 ↔ _
      rw [List.mem_append, List.mem_append, h.loaded, hloaded]

/-- The MIB data after a trap, which may have raised. -/
def trapStep (env : TrapEnv) (py : PySnmp B) (st : MibState B) (work : TrapWork) : MibState B :=
  (trap env py st work).1

/-- What the tasks of some traps return. -/
def trapResults (env : TrapEnv) (py : PySnmp B) :
    MibState B → List TrapWork → List (Except PyError TrapResult)
  | _, [] => []
  | st, work :: works =>
    (trap env py st work).2 :: trapResults env py (trapStep env py st work) works

/-- The log of a worker goes with what the worker does without it. -/
theorem trapResults_logged (env : TrapEnv) (py : PySnmp B) (st : MibState (B × LoadLog))
    (works : List TrapWork) :
    trapResults env py.logged st works = trapResults env py (st.map Prod.fst) works := by
  induction works generalizing st with
  | nil => rfl
  | cons work works ih =>
    have htrap := trap_map (logged_simulates py) env st work
    rw [trapResults, trapResults, ih, trapStep, trapStep, htrap]
    rfl

/-- The data that `Poller.__init__` leaves in a worker with a log. -/
theorem loadInitialMibs_logged {py : PySnmp B} {b : B} {st : MibState (B × LoadLog)}
    (h : loadInitialMibs py.logged (b, []) = some st) (index : List String) :
    LoadsOnce index (defaultStandardMibs.map fun mib => (mib, true)) [] st ∧
      loadInitialMibs py b = some (st.map Prod.fst) := by
  obtain ⟨builder, hbuilder, rfl⟩ := Option.map_eq_some_iff.mp h
  obtain ⟨hlog, hloaded⟩ := loadStandardMibs_logged py _ _ _ hbuilder
  refine ⟨⟨?_, List.nodup_nil, List.forall_mem_nil _, List.forall_mem_nil _, fun mib => ?_⟩, ?_⟩
  · rw [List.append_nil]
    exact hlog
  · exact iff_of_false List.not_mem_nil List.not_mem_nil
  · rw [loadInitialMibs, hloaded]
    rfl

/-- **The traps of a worker ask for each module at most once**, whatever the traps, the MIB
index and the outcomes: only for modules of the index, so no more often than the index has
modules.  What the worker remembers to be loaded is what they loaded, and the tasks return what
they return without the log.  The modules of `Poller.__init__` are not remembered. -/
theorem traps_load_once (env : TrapEnv) (py : PySnmp B) (b : B) (works : List TrapWork)
    {st : MibState (B × LoadLog)} (h : loadInitialMibs py.logged (b, []) = some st) :
    (∃ asked,
      LoadsOnce env.config.mibMap.values (defaultStandardMibs.map fun mib => (mib, true)) asked
          (Run.final (trapStep env py.logged) st works) ∧
        asked.length ≤ env.config.mibMap.values.dedup.length) ∧
      ∃ st', loadInitialMibs py b = some st' ∧
        trapResults env py.logged st works = trapResults env py st' works := by
  obtain ⟨hbegun, hinit⟩ := loadInitialMibs_logged h env.config.mibMap.values
  have hlife : ∃ asked, LoadsOnce env.config.mibMap.values
      (defaultStandardMibs.map fun mib => (mib, true)) asked
      (Run.final (trapStep env py.logged) st works) := by
    refine Run.final_of_steps (I := fun st => ∃ asked, LoadsOnce env.config.mibMap.values
      (defaultStandardMibs.map fun mib => (mib, true)) asked st)
      ⟨[], hbegun⟩ fun work _ st hst => ?_
    exact trap_induction (loadsOnce_loadNewTrapMibs env py _) hst work
  obtain ⟨asked, honce⟩ := hlife
  refine ⟨⟨asked, honce, ?_⟩, st.map Prod.fst, hinit, trapResults_logged env py st works⟩
  have hsub : asked.map Prod.fst ⊆ env.config.mibMap.values.dedup := fun mib hmib =>
    List.mem_dedup.mpr (honce.indexed mib hmib)
  simpa using (honce.once.subperm hsub).length_le

/-- pysnmp finds every module but that of a vendor, and has a translation for nothing. -/
def fanModules : PySnmp Unit where
  loadModules := fun builder mib => (builder, mib ≠ "ACME-TRAP-MIB")
  reread := fun _ vb => vb
  resolveObject := fun _ _ _ => .error .smiError
  nodeLocation := fun _ _ => .error .smiError
  resolveIdentity := fun _ _ => .error .smiError
  resolveLocated := fun _ _ _ => .error .smiError

/-- An index with the module of the vendor, and with one that `Poller.__init__` loads. -/
def fanEnv : TrapEnv where
  config := ⟨Dict.ofList [("1.3.6.1.4.1.99999", "ACME-TRAP-MIB"), ("1.3.6.1.2.1.2", "IF-MIB")],
    false⟩
  maxTrapVarbindsToDecode := 0
  includeUnresolvedTrapVarbinds := true
  splunkSourcetypeTraps := "sc4snmp:traps"
  ipv6Enabled := false
  resolveTrapAddress := false
  resolveAddress := .ok
  setOrder := id
  setOrder_perm := List.Perm.refl

/-- A trap with an object of the vendor and the status of an interface. -/
def fanTrap : TrapWork :=
  ⟨[("1.3.6.1.4.1.99999.1.0", "fan 2"), ("1.3.6.1.2.1.2.2.1.7.1", "down")], "10.0.0.1", none⟩

/-- The trap arrives twice; the second one asks for nothing. -/
theorem traps_load_once_fan :
    ∃ st, loadInitialMibs fanModules.logged ((), []) = some st ∧
      (∃ asked,
        LoadsOnce fanEnv.config.mibMap.values (defaultStandardMibs.map fun mib => (mib, true))
            asked (Run.final (trapStep fanEnv fanModules.logged) st
              [fanTrap, fanTrap]) ∧
          asked.length ≤ fanEnv.config.mibMap.values.dedup.length) ∧
        ∃ st', loadInitialMibs fanModules () = some st' ∧
          trapResults fanEnv fanModules.logged st [fanTrap, fanTrap] =
            trapResults fanEnv fanModules st' [fanTrap, fanTrap] :=
  ⟨_, rfl, traps_load_once fanEnv fanModules () [fanTrap, fanTrap] rfl⟩

end Sc4snmp
