import Sc4snmp.CustomTaskManager
import Sc4snmp.Discovery.TaskArguments

/-!
# The schedules of discoveries

`discovery/loader.py` turns the discoveries of a configuration into schedules.  It drops the
discoveries whose expiry time is another one, writes a schedule for each entry of the
configuration, and removes those without an entry.  An IPv6 network is passed over unless the
configuration enables them.  The inventory keeps its walks and polls in the same store.

What is read from the file is a parameter, and so is the form in which the arguments of a task
are stored.  A schedule without a period cannot be saved.

## Main definitions

* `discoveryTaskDefinition`, `addDiscovery`, `loadDiscoveries` — the source.
* `Scheduled` — a discovery of the configuration that gets a schedule.
* `ScheduleEvent`, `scheduleStep` — what happens to the store.

## Main results

* `discovery_schedules_exact` — **after a load the discoveries are those of the configuration**,
  whatever happened before.
* `loadDiscoveries_ok_iff` — a load returns exactly if every entry is sound.
-/

namespace Sc4snmp

/-! ### The source -/

/-- What a load depends on. -/
structure DiscoveryLoaderEnv extends DiscoveryEnv where
  /-- `check_ipv6` of a value that is a network. -/
  checkIpv6 : PyVal → Bool
  /-- The arguments of a task as they are stored. -/
  storedKwargs : DiscoveryConfig → Kwargs
  /-- `CHAIN_OF_TASKS_EXPIRY_TIME`. -/
  expiryTime : ℤ

/-- The file of a configuration, after the YAML loader. -/
structure DiscoveryRuntime where
  ipv6Enabled : PyVal
  /-- The discoveries, each a mapping or something else; `none` if there is no mapping of
  discoveries. -/
  autodiscovery : Option (Dict String (Option DiscoveryConfig))

/-- The name of the schedule of a discovery. -/
def discoveryTaskName (discoveryName : String) : String :=
  "sc4snmp;" ++ discoveryName ++ ";discovery"

/-- `DiscoveryTaskGenerator.DISCOVERY_CHAIN_OF_TASK`. -/
def discoveryChainOfTask (expiryTime : ℤ) : TaskOptions :=
  { queue := some "discovery", expires := some expiryTime }

/-- `DiscoveryTaskGenerator.generate_task_definition`, for a discovery with a frequency. -/
def discoveryTaskDefinition (env : DiscoveryLoaderEnv) (record : DiscoveryRecord) (frequency : ℤ) :
    TaskData :=
  { name := some (discoveryTaskName (optStr record.discoveryName).format)
    task := some discoveryTask
    target := record.networkAddress
    args := some []
    kwargs := some (env.storedKwargs record.dict)
    options := some (discoveryChainOfTask env.expiryTime)
    schedule := some frequency
    enabled := some true
    runImmediately := some true
    app := true }

/-- The settings of an entry with its name. -/
def DiscoveryConfig.named (config : DiscoveryConfig) (key : String) : DiscoveryConfig :=
  { config with scalars := config.scalars.insert "discovery_name" (.str key) }

/-- The body of the loop in `load`: the store, and the name of the schedule that is active. -/
def addDiscovery (env : DiscoveryLoaderEnv) (ipv6Enabled : PyVal) (s : ScheduleStore)
    (key : String) (value : Option DiscoveryConfig) :
    Except PyError (ScheduleStore × Option String) :=
  match value with
  | none => .error .typeError
  | some config =>
    match DiscoveryRecord.ofKeywords env.toDiscoveryEnv (config.named key) with
    | .error (.invalid _) => .error .valueError
    | .error (.raised err) => .error err
    | .ok record =>
      match config.scalars.get? "network_address" with
      | none => .error .keyError
      | some network =>
        let isIpv6 := env.checkIpv6 network
        if !isIpv6 || ipv6Enabled.truthy then
          match record.frequency with
          | none => .error .attributeError
          | some frequency => do
            let taskConfig := discoveryTaskDefinition env record frequency
            let s ← s.manageTask taskConfig
            return (s, taskConfig.name)
        else .ok (s, none)

/-- The loop in `load`. -/
def addDiscoveries (env : DiscoveryLoaderEnv) (ipv6Enabled : PyVal) :
    List (String × Option DiscoveryConfig) → ScheduleStore → List String →
      ScheduleStore × Except PyError (List String)
  | [], s, activeSchedules => (s, .ok activeSchedules)
  | (key, value) :: items, s, activeSchedules =>
    match addDiscovery env ipv6Enabled s key value with
    | .error err => (s, .error err)
    | .ok (s, name) => addDiscoveries env ipv6Enabled items s (activeSchedules ++ name.toList)

/-- `delete_unused_discovery_tasks`. -/
def ScheduleStore.deleteUnusedDiscoveryTasks (s : ScheduleStore) (activeSchedules : List String) :
    ScheduleStore :=
  s.deleteWhere (fun e => e.task = discoveryTask ∧ e.name ∉ activeSchedules) s.getAllSchedules

/-- `load`; the file may not be readable. -/
def loadDiscoveries (env : DiscoveryLoaderEnv) (file : Except PyError DiscoveryRuntime)
    (s : ScheduleStore) : ScheduleStore × Except PyError Unit :=
  match file with
  | .error err => (s, .error err)
  | .ok config =>
    let s := (s.didExpiryTimeChange env.expiryTime [discoveryTask]).2
    match config.autodiscovery with
    | none => (s, .error .attributeError)
    | some autodiscovery =>
      match addDiscoveries env config.ipv6Enabled autodiscovery.entries s [] with
      | (s, .error err) => (s, .error err)
      | (s, .ok activeSchedules) => (s.deleteUnusedDiscoveryTasks activeSchedules, .ok ())

/-! ### Discoveries of a configuration -/

/-- The entry makes this record, with a frequency, and gets a schedule: its network is no IPv6
network, or these are enabled. -/
def ActiveDiscovery (env : DiscoveryLoaderEnv) (ipv6Enabled : PyVal)
    (item : String × Option DiscoveryConfig) (record : DiscoveryRecord) (frequency : ℤ) : Prop :=
  ∃ config network, item.2 = some config ∧
    DiscoveryRecord.ofKeywords env.toDiscoveryEnv (config.named item.1) = .ok record ∧
    config.scalars.get? "network_address" = some network ∧
    (env.checkIpv6 network = false ∨ ipv6Enabled.truthy = true) ∧
    record.frequency = some frequency

/-- An entry makes one record. -/
theorem ActiveDiscovery.unique {env : DiscoveryLoaderEnv} {ipv6Enabled : PyVal}
    {item : String × Option DiscoveryConfig} {record record' : DiscoveryRecord}
    {frequency frequency' : ℤ} (h : ActiveDiscovery env ipv6Enabled item record frequency)
    (h' : ActiveDiscovery env ipv6Enabled item record' frequency') :
    record = record' ∧ frequency = frequency' := by
  obtain ⟨config, network, hconfig, hrecord, -, -, hfrequency⟩ := h
  obtain ⟨config', network', hconfig', hrecord', -, -, hfrequency'⟩ := h'
  obtain rfl : config = config' := Option.some.inj (hconfig.symm.trans hconfig')
  obtain rfl : record = record' := Except.ok.inj (hrecord.symm.trans hrecord')
  exact ⟨rfl, Option.some.inj (hfrequency.symm.trans hfrequency')⟩

/-- The discovery of the configuration gets a schedule. -/
def Scheduled (env : DiscoveryLoaderEnv) (config : DiscoveryRuntime) (key : String)
    (record : DiscoveryRecord) (frequency : ℤ) : Prop :=
  ∃ autodiscovery value, config.autodiscovery = some autodiscovery ∧
    autodiscovery.get? key = some value ∧
    ActiveDiscovery env config.ipv6Enabled (key, value) record frequency

/-- The key of the schedule of a discovery. -/
def discoveryKey (discoveryName : String) : String := redbeatKey (discoveryTaskName discoveryName)

theorem discoveryKey_injective : Function.Injective discoveryKey := by
  intro a b h
  have hname := redbeatKey_injective h
  rwa [discoveryTaskName, discoveryTaskName, String.append_left_inj, String.append_right_inj]
    at hname

theorem isMatch_discoveryKey (name : String) :
    Glob.isMatch ScheduleStore.allSchedulesPattern (discoveryKey name) = true := by
  rw [discoveryKey, discoveryTaskName, String.append_assoc]
  exact ScheduleStore.isMatch_allSchedulesPattern _

variable {env : DiscoveryLoaderEnv} {s s' : ScheduleStore} {x : ℤ} {key : String}
  {record : DiscoveryRecord} {frequency : ℤ}

/-- The record of an entry has its name. -/
theorem discoveryName_of_named {denv : DiscoveryEnv} {config : DiscoveryConfig}
    (h : DiscoveryRecord.ofKeywords denv (config.named key) = .ok record) :
    record.discoveryName = some key := by
  have hname := (DiscoveryRecord.ofKeywords_eq_ok_iff.mp h).1
  have hget : (config.named key).scalars.get? "discovery_name" = some (.str key) := by
    rw [DiscoveryConfig.named, Dict.get?_insert, if_pos rfl]
  rw [DiscoveryRecord.fieldOf, hget] at hname
  exact (Validation.FieldOutcome.value.inj hname).symm

/-- The schedule of a discovery. -/
def discoveryEntry (env : DiscoveryLoaderEnv) (record : DiscoveryRecord) (frequency : ℤ) :
    RedBeatSchedulerEntry :=
  (discoveryTaskDefinition env record frequency).newEntry

/-! ### The invariant -/

/-- The discoveries of a store stand under their names, nothing else does, and they were built
with one expiry time. -/
structure DiscoveriesOwned (s : ScheduleStore) (expiryTime : ℤ) : Prop where
  ownName : ∀ k e, s.lookup? k = some e → e.task = discoveryTask → ∃ name, k = discoveryKey name
  ownTask : ∀ name e, s.lookup? (discoveryKey name) = some e →
    e.task = discoveryTask ∧ e.options = discoveryChainOfTask expiryTime

namespace DiscoveriesOwned

theorem empty (x : ℤ) : DiscoveriesOwned ScheduleStore.empty x :=
  ⟨fun _ _ h => (by cases h), fun _ _ h => (by cases h)⟩

/-- Removing entries keeps the invariant. -/
theorem of_subset (h : DiscoveriesOwned s x)
    (hsub : ∀ k e, s'.lookup? k = some e → s.lookup? k = some e) : DiscoveriesOwned s' x :=
  ⟨fun k e he => h.ownName k e (hsub k e he), fun name e he => h.ownTask name e (hsub _ e he)⟩

/-- After a look at the expiry times the discoveries that are left have the new one. -/
theorem didExpiryTimeChange (h : DiscoveriesOwned s x) (y : ℤ) :
    DiscoveriesOwned (s.didExpiryTimeChange y [discoveryTask]).2 y := by
  have hspec := fun k e => ScheduleStore.didExpiryTimeChange_spec s y [discoveryTask] (k := k)
    (e := e)
  have hleft := h.of_subset fun k e he => (hspec k e he).1
  refine ⟨hleft.ownName, fun name e he => ?_⟩
  obtain ⟨htask, hoptions⟩ := hleft.ownTask name e he
  have hx : x = y := (hspec _ e he).2 (isMatch_discoveryKey name) (by simp [htask]) x
    (by rw [hoptions]; rfl)
  exact ⟨htask, hx ▸ hoptions⟩

/-- What `manage_task` makes of the schedule of a discovery is the generated one, whatever was
there: the fields it leaves alone cannot differ. -/
theorem managedEntry_eq (h : DiscoveriesOwned s env.expiryTime)
    (hname : record.discoveryName = some key) (hnetwork : record.networkAddress.isSome) :
    ScheduleStore.managedEntry (s.lookup? (discoveryKey key))
      (discoveryTaskDefinition env record frequency) = discoveryEntry env record frequency := by
  cases he : s.lookup? (discoveryKey key) with
  | none => rfl
  | some e =>
    have hkey : discoveryTaskName key = e.name :=
      redbeatKey_injective (ScheduleStore.key_of_lookup? he)
    obtain ⟨htask, hoptions⟩ := h.ownTask key e he
    obtain ⟨network, hnetwork⟩ := Option.isSome_iff_exists.mp hnetwork
    obtain ⟨name, task, target, args, kwargs, options, schedule, enabled, runImmediately⟩ := e
    simp only at hkey htask hoptions
    subst hkey htask hoptions
    rw [discoveryEntry, discoveryTaskDefinition, hname, hnetwork]
    rfl

end DiscoveriesOwned

/-- The network of an entry is a text of its record. -/
theorem networkAddress_of_named {denv : DiscoveryEnv} {config : DiscoveryConfig} {network : PyVal}
    (h : DiscoveryRecord.ofKeywords denv (config.named key) = .ok record)
    (hnetwork : config.scalars.get? "network_address" = some network) :
    record.networkAddress = some network.format := by
  have hfield := (DiscoveryRecord.ofKeywords_eq_ok_iff.mp h).2.1
  have hget : (config.named key).scalars.get? "network_address" = some network := by
    rw [DiscoveryConfig.named, Dict.get?_insert, if_neg (by decide), hnetwork]
  rw [DiscoveryRecord.fieldOf, hget] at hfield
  dsimp only at hfield
  cases network with
  | none => cases hfield
  | _ =>
    simp only [DiscoveryRecord.networkAddressValidator] at hfield
    split at hfield
    · exact (Validation.FieldOutcome.value.inj hfield).symm
    · cases hfield

/-- **What the loop does with an entry** when it gets through: it passes over a network, or it
writes a schedule. -/
theorem addDiscovery_ok {ipv6Enabled : PyVal} {value : Option DiscoveryConfig}
    {name : Option String} (h : addDiscovery env ipv6Enabled s key value = .ok (s', name)) :
    (s' = s ∧ name = none ∧
      ∀ record frequency, ¬ ActiveDiscovery env ipv6Enabled (key, value) record frequency) ∨
    ∃ record frequency, ActiveDiscovery env ipv6Enabled (key, value) record frequency ∧
      record.discoveryName = some key ∧ record.networkAddress.isSome ∧
      s.manageTask (discoveryTaskDefinition env record frequency) = .ok s' ∧
      name = some (discoveryTaskName key) := by
  unfold addDiscovery at h
  cases value with
  | none => cases h
  | some config =>
    dsimp only at h
    cases hrecord : DiscoveryRecord.ofKeywords env.toDiscoveryEnv (config.named key) with
    | error err =>
      rw [hrecord] at h
      cases err <;> cases h
    | ok record =>
      rw [hrecord] at h
      dsimp only at h
      cases hnetwork : config.scalars.get? "network_address" with
      | none =>
        rw [hnetwork] at h
        cases h
      | some network =>
        rw [hnetwork] at h
        dsimp only at h
        split at h
        · next hactive =>
          have hactive : env.checkIpv6 network = false ∨ ipv6Enabled.truthy = true := by
            simpa using hactive
          cases hfrequency : record.frequency with
          | none =>
            rw [hfrequency] at h
            cases h
          | some frequency =>
            rw [hfrequency] at h
            obtain ⟨t, ht, h⟩ := PyError.bind_eq_ok.mp h
            cases h
            have hname := discoveryName_of_named hrecord
            refine .inr ⟨record, frequency,
              ⟨config, network, rfl, hrecord, hnetwork, hactive, hfrequency⟩, hname, ?_, ht, ?_⟩
            · rw [networkAddress_of_named hrecord hnetwork]
              rfl
            · rw [discoveryTaskDefinition, hname]
              rfl
        · next hpassed =>
          cases h
          refine .inl ⟨rfl, rfl, ?_⟩
          rintro record' frequency ⟨config', network', hvalue, -, hnetwork', hactive, -⟩
          cases hvalue
          cases hnetwork.symm.trans hnetwork'
          exact hpassed (by simpa using hactive)

/-- An entry that gets a schedule. -/
def IsActive (env : DiscoveryLoaderEnv) (ipv6Enabled : PyVal)
    (item : String × Option DiscoveryConfig) : Prop :=
  ∃ record frequency, ActiveDiscovery env ipv6Enabled item record frequency

/-- What the loop does to the store, entry by entry. -/
theorem lookup?_addDiscovery {ipv6Enabled : PyVal} {value : Option DiscoveryConfig}
    {name : Option String} (hs : DiscoveriesOwned s env.expiryTime)
    (h : addDiscovery env ipv6Enabled s key value = .ok (s', name)) :
    (¬ IsActive env ipv6Enabled (key, value) ∧ s' = s ∧ name = none) ∨
    ∃ record frequency, ActiveDiscovery env ipv6Enabled (key, value) record frequency ∧
      name = some (discoveryTaskName key) ∧ ∀ k, s'.lookup? k =
        if k = discoveryKey key then some (discoveryEntry env record frequency)
        else s.lookup? k := by
  rcases addDiscovery_ok h with ⟨rfl, rfl, hnot⟩ | ⟨record, frequency, hactive, hname, hnetwork,
    hrun, rfl⟩
  · refine .inl ⟨?_, rfl, rfl⟩
    rintro ⟨record, frequency, hactive⟩
    exact hnot record frequency hactive
  · refine .inr ⟨record, frequency, hactive, rfl, fun k => ?_⟩
    have htask : (discoveryTaskDefinition env record frequency).name =
        some (discoveryTaskName key) := by
      rw [discoveryTaskDefinition, hname]
      rfl
    rw [ScheduleStore.lookup?_manageTask htask rfl hrun, ← discoveryKey]
    by_cases hk : k = discoveryKey key
    · rw [if_pos hk, if_pos hk, hk, hs.managedEntry_eq hname hnetwork]
    · rw [if_neg hk, if_neg hk]

/-- A schedule that is written keeps the invariant. -/
theorem DiscoveriesOwned.addDiscovery {ipv6Enabled : PyVal} {value : Option DiscoveryConfig}
    {name : Option String} (hs : DiscoveriesOwned s env.expiryTime)
    (h : addDiscovery env ipv6Enabled s key value = .ok (s', name)) :
    DiscoveriesOwned s' env.expiryTime := by
  rcases lookup?_addDiscovery hs h with ⟨-, rfl, -⟩ | ⟨record, frequency, -, -, hlookup⟩
  · exact hs
  · constructor
    · intro k e he htask
      rw [hlookup] at he
      split at he
      · next hk => exact ⟨key, hk⟩
      · exact hs.ownName k e he htask
    · intro name e he
      rw [hlookup] at he
      split at he
      · cases he
        exact ⟨rfl, rfl⟩
      · exact hs.ownTask name e he

/-- The loop keeps the invariant, also when it ends early. -/
theorem DiscoveriesOwned.addDiscoveries {ipv6Enabled : PyVal}
    (items : List (String × Option DiscoveryConfig)) (hs : DiscoveriesOwned s env.expiryTime)
    (activeSchedules : List String) :
    DiscoveriesOwned (addDiscoveries env ipv6Enabled items s activeSchedules).1
      env.expiryTime := by
  induction items generalizing s activeSchedules with
  | nil => exact hs
  | cons item items ih =>
    rw [Sc4snmp.addDiscoveries]
    cases hitem : Sc4snmp.addDiscovery env ipv6Enabled s item.1 item.2 with
    | error err => exact hs
    | ok result => exact ih (hs.addDiscovery hitem) _

/-- **What the loop leaves** when it gets through: the schedules of the entries, and what was
there under other keys.  The names are those of the entries with a schedule. -/
theorem addDiscoveries_ok {ipv6Enabled : PyVal} {items : List (String × Option DiscoveryConfig)}
    {activeSchedules result : List String} (hs : DiscoveriesOwned s env.expiryTime)
    (hnodup : (items.map Prod.fst).Nodup)
    (h : addDiscoveries env ipv6Enabled items s activeSchedules = (s', .ok result)) :
    (∀ k e, s'.lookup? k = some e ↔
      (∃ item ∈ items, ∃ record frequency, ActiveDiscovery env ipv6Enabled item record frequency ∧
        k = discoveryKey item.1 ∧ e = discoveryEntry env record frequency) ∨
      s.lookup? k = some e ∧
        ∀ item ∈ items, IsActive env ipv6Enabled item → k ≠ discoveryKey item.1) ∧
    ∀ name, name ∈ result ↔ name ∈ activeSchedules ∨
      ∃ item ∈ items, IsActive env ipv6Enabled item ∧ name = discoveryTaskName item.1 := by
  induction items generalizing s activeSchedules with
  | nil =>
    cases h
    simp
  | cons item items ih =>
    obtain ⟨hfresh, hnodup⟩ := List.nodup_cons.mp hnodup
    rw [addDiscoveries] at h
    cases hitem : addDiscovery env ipv6Enabled s item.1 item.2 with
    | error err =>
      rw [hitem] at h
      cases h
    | ok next =>
      rw [hitem] at h
      obtain ⟨hlookup, hnames⟩ := ih (hs.addDiscovery hitem) hnodup h
      rcases lookup?_addDiscovery hs hitem with
        ⟨hpassed, hstore, hname⟩ | ⟨record, frequency, hactive, hname, hstore⟩
      · -- the entry is passed over
        constructor
        · intro k e
          rw [hlookup, hstore, List.exists_mem_cons_iff, List.forall_mem_cons]
          constructor
          · rintro (⟨i, hi, hrest⟩ | ⟨hold, hrest⟩)
            · exact .inl (.inr ⟨i, hi, hrest⟩)
            · exact .inr ⟨hold, fun hactive => absurd hactive hpassed, hrest⟩
          · rintro ((⟨record, frequency, hactive, -⟩ | hrest) | ⟨hold, -, hrest⟩)
            · exact absurd ⟨record, frequency, hactive⟩ hpassed
            · exact .inl hrest
            · exact .inr ⟨hold, hrest⟩
        · intro name
          rw [hnames, hname, List.exists_mem_cons_iff]
          simp [hpassed]
      · -- the schedule of the entry stays, as no other entry has its name
        constructor
        · intro k e
          rw [hlookup, hstore, List.exists_mem_cons_iff, List.forall_mem_cons]
          by_cases hk : k = discoveryKey item.1
          · have hother : ∀ i ∈ items, k ≠ discoveryKey i.1 := by
              rintro i hi hki
              have hname : item.1 = i.1 := discoveryKey_injective (hk.symm.trans hki)
              exact hfresh (hname ▸ List.mem_map_of_mem hi)
            rw [if_pos hk]
            constructor
            · rintro (⟨i, hi, _, _, -, hki, -⟩ | ⟨hentry, -⟩)
              · exact absurd hki (hother i hi)
              · exact .inl (.inl ⟨record, frequency, hactive, hk, (Option.some.inj hentry).symm⟩)
            · rintro ((⟨record', frequency', hactive', -, rfl⟩ | ⟨i, hi, _, _, -, hki, -⟩) | h)
              · obtain ⟨rfl, rfl⟩ := hactive.unique hactive'
                exact .inr ⟨rfl, fun i hi _ => hother i hi⟩
              · exact absurd hki (hother i hi)
              · exact absurd hk (h.2.1 ⟨record, frequency, hactive⟩)
          · rw [if_neg hk]
            constructor
            · rintro (hrest | ⟨hold, hrest⟩)
              · exact .inl (.inr hrest)
              · exact .inr ⟨hold, fun _ => hk, hrest⟩
            · rintro ((⟨_, _, -, hk', -⟩ | hrest) | ⟨hold, -, hrest⟩)
              · exact absurd hk' hk
              · exact .inl hrest
              · exact .inr ⟨hold, hrest⟩
        · intro name
          rw [hnames, hname, List.exists_mem_cons_iff]
          have hisActive : IsActive env ipv6Enabled item := ⟨record, frequency, hactive⟩
          simp only [List.mem_append, Option.toList_some, List.mem_singleton, hisActive, true_and,
            or_assoc]

/-- What `delete_unused_discovery_tasks` leaves under each key. -/
theorem ScheduleStore.lookup?_deleteUnusedDiscoveryTasks (s : ScheduleStore)
    (activeSchedules : List String) (k : String) :
    (s.deleteUnusedDiscoveryTasks activeSchedules).lookup? k =
      (s.lookup? k).filter fun e => !(Glob.isMatch allSchedulesPattern k &&
        decide (e.task = discoveryTask ∧ e.name ∉ activeSchedules)) :=
  lookup?_deleteWhere_loadSchedules _ _ s k

/-! ### A load -/

/-- A load keeps the invariant, also when it raises. -/
theorem DiscoveriesOwned.loadDiscoveries (h : DiscoveriesOwned s x) (env : DiscoveryLoaderEnv)
    (file : Except PyError DiscoveryRuntime) :
    ∃ y, DiscoveriesOwned (loadDiscoveries env file s).1 y := by
  unfold Sc4snmp.loadDiscoveries
  cases file with
  | error err => exact ⟨x, h⟩
  | ok config =>
    have hnew := h.didExpiryTimeChange env.expiryTime
    dsimp only
    cases config.autodiscovery with
    | none => exact ⟨_, hnew⟩
    | some autodiscovery =>
      have hloop : DiscoveriesOwned (Sc4snmp.addDiscoveries env config.ipv6Enabled
          autodiscovery.entries (s.didExpiryTimeChange env.expiryTime [discoveryTask]).2 []).1
          env.expiryTime := hnew.addDiscoveries _ _
      dsimp only
      cases hrun : Sc4snmp.addDiscoveries env config.ipv6Enabled autodiscovery.entries
        (s.didExpiryTimeChange env.expiryTime [discoveryTask]).2 [] with
      | mk t result =>
        rw [hrun] at hloop
        cases result with
        | error err => exact ⟨_, hloop⟩
        | ok activeSchedules =>
          refine ⟨_, hloop.of_subset fun k e he => ?_⟩
          rw [ScheduleStore.lookup?_deleteUnusedDiscoveryTasks, Option.filter_eq_some_iff] at he
          exact he.1

/-- A schedule that is no discovery is left alone when the expiry time changes. -/
theorem lookup?_didExpiryTimeChange_of_task {k : String} {e : RedBeatSchedulerEntry}
    (hs : s.lookup? k = some e) (htask : e.task ≠ discoveryTask) (y : ℤ) :
    (s.didExpiryTimeChange y [discoveryTask]).2.lookup? k = some e := by
  rw [ScheduleStore.didExpiryTimeChange]
  split
  · exact hs
  · rw [ScheduleStore.lookup?_foldl_deleteAllTasksOfType, hs]
    simp [htask, Option.filter_some]

/-- What a load that returns has done. -/
theorem loadDiscoveries_eq_ok {config : DiscoveryRuntime}
    (h : loadDiscoveries env (.ok config) s = (s', .ok ())) :
    ∃ autodiscovery t activeSchedules, config.autodiscovery = some autodiscovery ∧
      addDiscoveries env config.ipv6Enabled autodiscovery.entries
        (s.didExpiryTimeChange env.expiryTime [discoveryTask]).2 [] = (t, .ok activeSchedules) ∧
      s' = t.deleteUnusedDiscoveryTasks activeSchedules := by
  unfold loadDiscoveries at h
  dsimp only at h
  cases hconfig : config.autodiscovery with
  | none =>
    rw [hconfig] at h
    cases h
  | some autodiscovery =>
    rw [hconfig] at h
    dsimp only at h
    cases hrun : addDiscoveries env config.ipv6Enabled autodiscovery.entries
      (s.didExpiryTimeChange env.expiryTime [discoveryTask]).2 [] with
    | mk t result =>
      rw [hrun] at h
      cases result with
      | error err => cases h
      | ok activeSchedules =>
        cases h
        exact ⟨autodiscovery, t, activeSchedules, rfl, hrun, rfl⟩

/-- **A load that returns leaves the discoveries of the configuration**, and the other
schedules as they are. -/
theorem loadDiscoveries_ok (hs : DiscoveriesOwned s x) {config : DiscoveryRuntime}
    (h : loadDiscoveries env (.ok config) s = (s', .ok ())) (k : String)
    (e : RedBeatSchedulerEntry) :
    s'.lookup? k = some e ↔
      (∃ key record frequency, Scheduled env config key record frequency ∧
        k = discoveryKey key ∧ e = discoveryEntry env record frequency) ∨
      s.lookup? k = some e ∧ e.task ≠ discoveryTask := by
  obtain ⟨autodiscovery, t, activeSchedules, hconfig, hrun, rfl⟩ := loadDiscoveries_eq_ok h
  have hleft := hs.didExpiryTimeChange env.expiryTime
  obtain ⟨hlookup, hnames⟩ := addDiscoveries_ok hleft autodiscovery.nodup_keys hrun
  have hname : ∀ {k e}, t.lookup? k = some e → ∀ name, k = discoveryKey name →
      e.name = discoveryTaskName name := fun he name hk =>
    redbeatKey_injective ((ScheduleStore.key_of_lookup? he).symm.trans hk)
  rw [ScheduleStore.lookup?_deleteUnusedDiscoveryTasks, Option.filter_eq_some_iff]
  constructor
  · rintro ⟨he, hkept⟩
    rcases (hlookup k e).mp he with ⟨item, hitem, record, frequency, hactive, hk, rfl⟩ |
      ⟨hold, hother⟩
    · exact .inl ⟨item.1, record, frequency,
        ⟨autodiscovery, item.2, hconfig, Dict.mem_entries_iff.mp hitem, hactive⟩, hk, rfl⟩
    · refine .inr ⟨(ScheduleStore.didExpiryTimeChange_spec s _ _ hold).1, fun htask => ?_⟩
      -- an old discovery would have been removed
      obtain ⟨name, rfl⟩ := hleft.ownName k e hold htask
      rw [isMatch_discoveryKey] at hkept
      have hmem : e.name ∈ activeSchedules := by simpa [htask] using hkept
      obtain ⟨item, hitem, hactive, heq⟩ := ((hnames e.name).mp hmem).resolve_left (by simp)
      refine hother item hitem hactive (congrArg redbeatKey ?_)
      rw [← heq, hname he name rfl]
  · rintro (⟨key, record, frequency, ⟨autodiscovery', value, hconfig', hvalue, hactive⟩, hk,
      rfl⟩ | ⟨hold, htask⟩)
    · obtain rfl : autodiscovery = autodiscovery' :=
        Option.some.inj (hconfig.symm.trans hconfig')
      have hitem : (key, value) ∈ autodiscovery.entries := Dict.mem_entries_iff.mpr hvalue
      have he : t.lookup? k = some (discoveryEntry env record frequency) :=
        (hlookup k _).mpr (.inl ⟨_, hitem, record, frequency, hactive, hk, rfl⟩)
      have hmem : (discoveryEntry env record frequency).name ∈ activeSchedules := by
        rw [hname he key hk, hnames]
        exact .inr ⟨_, hitem, ⟨record, frequency, hactive⟩, rfl⟩
      exact ⟨he, by simp [hmem]⟩
    · have hleft' := lookup?_didExpiryTimeChange_of_task hold htask env.expiryTime
      refine ⟨(hlookup k e).mpr (.inr ⟨hleft', fun item _ _ hk => ?_⟩), by simp [htask]⟩
      subst hk
      exact htask (hleft.ownTask item.1 e hleft').1

/-! ### Runs -/

/-- What happens to the schedules: discoveries are loaded, walks and polls are written, and
schedules are removed. -/
inductive ScheduleEvent
  | loadDiscoveries (env : DiscoveryLoaderEnv) (file : Except PyError DiscoveryRuntime)
  | manageWalk (expiryTime : ℤ) (walk : WalkTaskGenerator)
  | managePoll (poll : PollTaskGenerator)
  | delete (test : RedBeatSchedulerEntry → Bool) (pattern : String)

/-- `manage_task`, which leaves the store as it is when it raises. -/
def ScheduleStore.manage (s : ScheduleStore) (d : TaskData) : ScheduleStore :=
  match s.manageTask d with
  | .ok s' => s'
  | .error _ => s

def scheduleStep (s : ScheduleStore) : ScheduleEvent → ScheduleStore
  | .loadDiscoveries env file => (loadDiscoveries env file s).1
  | .manageWalk expiryTime walk => s.manage (walk.generateTaskDefinition expiryTime)
  | .managePoll poll => s.manage poll.generateTaskDefinition
  | .delete test pattern => s.deleteWhere test (s.loadSchedules pattern)

theorem getLast?_discoveryTaskName (name : String) :
    (discoveryTaskName name).toList.getLast? = some 'y' := by
  rw [discoveryTaskName, String.toList_append, List.getLast?_append]
  rfl

theorem walkTaskName_ne_discoveryTaskName (target name : String) :
    walkTaskName target ≠ discoveryTaskName name := by
  intro h
  have hlast := getLast?_discoveryTaskName name
  rw [← h, walkTaskName, String.toList_append, List.getLast?_append] at hlast
  cases hlast

theorem pollTaskName_ne_discoveryTaskName (target : String) (period : ℤ) (name : String) :
    pollTaskName target period ≠ discoveryTaskName name := by
  intro h
  have hlast := getLast?_discoveryTaskName name
  rw [← h, pollTaskName, String.toList_append, List.getLast?_append] at hlast
  cases hlast

/-- A task of another type under a name of its own keeps the invariant. -/
theorem DiscoveriesOwned.manage (h : DiscoveriesOwned s x) {d : TaskData} {name task : String}
    (hname : d.name = some name) (hfields : d.missingFields = []) (htask : d.task = some task)
    (hother : ∀ n, name ≠ discoveryTaskName n) (hne : task ≠ discoveryTask) :
    DiscoveriesOwned (s.manage d) x := by
  unfold ScheduleStore.manage
  cases hrun : s.manageTask d with
  | error err => exact h
  | ok s' =>
    have hlookup := ScheduleStore.lookup?_manageTask hname hfields hrun
    have hkey : ∀ n, discoveryKey n ≠ redbeatKey name := fun n hk =>
      hother n (redbeatKey_injective hk).symm
    constructor
    · intro k e he hdiscovery
      rw [hlookup] at he
      split at he
      · next hk =>
        refine absurd hdiscovery ?_
        cases he
        subst hk
        cases hold : s.lookup? (redbeatKey name) with
        | none => rwa [ScheduleStore.managedEntry, TaskData.newEntry, htask]
        | some old =>
          intro hold'
          obtain ⟨n, hn⟩ := h.ownName _ old hold hold'
          exact hkey n hn.symm
      · exact h.ownName k e he hdiscovery
    · intro n e he
      rw [hlookup, if_neg (hkey n)] at he
      exact h.ownTask n e he

/-- Every event keeps the invariant. -/
theorem DiscoveriesOwned.step (h : DiscoveriesOwned s x) (event : ScheduleEvent) :
    ∃ y, DiscoveriesOwned (scheduleStep s event) y := by
  cases event with
  | loadDiscoveries env file => exact h.loadDiscoveries env file
  | manageWalk expiryTime walk =>
    exact ⟨x, h.manage rfl rfl rfl (walkTaskName_ne_discoveryTaskName _) (by decide)⟩
  | managePoll poll =>
    exact ⟨x, h.manage rfl rfl rfl (pollTaskName_ne_discoveryTaskName _ _) (by decide)⟩
  | delete test pattern =>
    refine ⟨x, h.of_subset fun k e he => ?_⟩
    rw [scheduleStep, ScheduleStore.lookup?_deleteWhere_loadSchedules,
      Option.filter_eq_some_iff] at he
    exact he.1

/-- The invariant holds in every run. -/
theorem discoveriesOwned_final (events : List ScheduleEvent) :
    ∃ x, DiscoveriesOwned (Run.final scheduleStep ScheduleStore.empty events) x := by
  refine Run.final_of_steps (I := fun s => ∃ x, DiscoveriesOwned s x) ⟨0, .empty 0⟩ ?_
  rintro event - s ⟨x, hs⟩
  exact hs.step event

/-! ### Loads that return -/

/-- The loop gets through at the entry: its settings make a record, and the network is passed
over or the record has a frequency. -/
def SoundEntry (env : DiscoveryLoaderEnv) (ipv6Enabled : PyVal)
    (item : String × Option DiscoveryConfig) : Prop :=
  ∃ config record network, item.2 = some config ∧
    DiscoveryRecord.ofKeywords env.toDiscoveryEnv (config.named item.1) = .ok record ∧
    config.scalars.get? "network_address" = some network ∧
    (env.checkIpv6 network = true ∧ ipv6Enabled.truthy = false ∨ record.frequency.isSome = true)

theorem addDiscovery_isOk_iff {ipv6Enabled : PyVal} {value : Option DiscoveryConfig}
    (hs : s.Readable) : (∃ r, addDiscovery env ipv6Enabled s key value = .ok r) ↔
      SoundEntry env ipv6Enabled (key, value) := by
  unfold addDiscovery SoundEntry
  cases value with
  | none => simp
  | some config =>
    dsimp only
    cases hrecord : DiscoveryRecord.ofKeywords env.toDiscoveryEnv (config.named key) with
    | error err => cases err <;> simp [hrecord]
    | ok record =>
      dsimp only
      cases hnetwork : config.scalars.get? "network_address" with
      | none => simp [hrecord, hnetwork]
      | some network =>
        dsimp only
        have hiff : (∃ config' record' network', some config = some config' ∧
            DiscoveryRecord.ofKeywords env.toDiscoveryEnv (config'.named key) = .ok record' ∧
            config'.scalars.get? "network_address" = some network' ∧
            (env.checkIpv6 network' = true ∧ ipv6Enabled.truthy = false ∨
              record'.frequency.isSome = true)) ↔
            (env.checkIpv6 network = true ∧ ipv6Enabled.truthy = false ∨
              record.frequency.isSome = true) := by
          constructor
          · rintro ⟨config', record', network', hconfig, hrecord', hnetwork', h⟩
            cases hconfig
            cases hrecord.symm.trans hrecord'
            cases hnetwork.symm.trans hnetwork'
            exact h
          · exact fun h => ⟨config, record, network, rfl, hrecord, hnetwork, h⟩
        rw [hiff]
        cases hfrequency : record.frequency with
        | none => cases env.checkIpv6 network <;> cases ipv6Enabled.truthy <;> simp
        | some frequency =>
          obtain ⟨t, ht, -⟩ := ScheduleStore.manageTask_of_readable hs
            (discoveryTaskDefinition env record frequency)
          simp only [ht, Option.isSome_some, or_true, iff_true]
          split
          · exact ⟨_, rfl⟩
          · exact ⟨_, rfl⟩

theorem addDiscovery_readable {ipv6Enabled : PyVal} {value : Option DiscoveryConfig}
    {name : Option String} (hs : s.Readable)
    (h : addDiscovery env ipv6Enabled s key value = .ok (s', name)) : s'.Readable := by
  rcases addDiscovery_ok h with ⟨rfl, -⟩ | ⟨record, frequency, -, -, -, hrun, -⟩
  · exact hs
  · obtain ⟨t, ht, hreadable⟩ := ScheduleStore.manageTask_of_readable hs
      (discoveryTaskDefinition env record frequency)
    cases ht.symm.trans hrun
    exact hreadable

/-- In a readable store the loop gets through exactly if it does at every entry. -/
theorem addDiscoveries_isOk_iff (env : DiscoveryLoaderEnv) (ipv6Enabled : PyVal)
    (items : List (String × Option DiscoveryConfig)) (hs : s.Readable)
    (activeSchedules : List String) :
    (addDiscoveries env ipv6Enabled items s activeSchedules).1.Readable ∧
    ((∃ result, (addDiscoveries env ipv6Enabled items s activeSchedules).2 = .ok result) ↔
      ∀ item ∈ items, SoundEntry env ipv6Enabled item) := by
  induction items generalizing s activeSchedules with
  | nil => exact ⟨hs, by simp [addDiscoveries]⟩
  | cons item items ih =>
    have hitemOk : (∃ r, addDiscovery env ipv6Enabled s item.1 item.2 = .ok r) ↔
        SoundEntry env ipv6Enabled item := addDiscovery_isOk_iff hs
    rw [List.forall_mem_cons, ← hitemOk, addDiscoveries]
    cases hitem : addDiscovery env ipv6Enabled s item.1 item.2 with
    | error err => exact ⟨hs, by simp⟩
    | ok next =>
      obtain ⟨hreadable, hiff⟩ := ih (addDiscovery_readable hs hitem)
        (activeSchedules ++ next.2.toList)
      exact ⟨hreadable, hiff.trans (by simp)⟩

theorem loadDiscoveries_readable (hs : s.Readable) (env : DiscoveryLoaderEnv)
    (file : Except PyError DiscoveryRuntime) :
    (loadDiscoveries env file s).1.Readable ∧
    ((loadDiscoveries env file s).2 = .ok () ↔ ∃ config autodiscovery, file = .ok config ∧
      config.autodiscovery = some autodiscovery ∧
      ∀ item ∈ autodiscovery.entries, SoundEntry env config.ipv6Enabled item) := by
  unfold loadDiscoveries
  cases file with
  | error err => exact ⟨hs, by simp⟩
  | ok config =>
    have hexpiry : (s.didExpiryTimeChange env.expiryTime [discoveryTask]).2.Readable := by
      rw [ScheduleStore.didExpiryTimeChange]
      split
      · exact hs
      · exact hs.deleteWhere _ _
    dsimp only
    cases hconfig : config.autodiscovery with
    | none => exact ⟨hexpiry, by simp [hconfig]⟩
    | some autodiscovery =>
      have hloop := addDiscoveries_isOk_iff env config.ipv6Enabled autodiscovery.entries hexpiry []
      have hsound : (∃ config' autodiscovery',
          (Except.ok config : Except PyError DiscoveryRuntime) = .ok config' ∧
          config'.autodiscovery = some autodiscovery' ∧
          ∀ item ∈ autodiscovery'.entries, SoundEntry env config'.ipv6Enabled item) ↔
          ∀ item ∈ autodiscovery.entries, SoundEntry env config.ipv6Enabled item := by
        constructor
        · rintro ⟨config', autodiscovery', heq, hconfig', h⟩
          cases heq
          cases hconfig.symm.trans hconfig'
          exact h
        · exact fun h => ⟨config, autodiscovery, rfl, hconfig, h⟩
      rw [hsound]
      dsimp only
      cases hrun : addDiscoveries env config.ipv6Enabled autodiscovery.entries
        (s.didExpiryTimeChange env.expiryTime [discoveryTask]).2 [] with
      | mk t result =>
        rw [hrun] at hloop
        obtain ⟨hreadable, hiff⟩ := hloop
        rw [← hiff]
        cases result with
        | error err => exact ⟨hreadable, by simp⟩
        | ok activeSchedules => exact ⟨hreadable.deleteWhere _ _, by simp⟩

/-- No event leaves anything in the store that cannot be read. -/
theorem readable_scheduleStep (hs : s.Readable) (event : ScheduleEvent) :
    (scheduleStep s event).Readable := by
  have hmanage : ∀ d, (s.manage d).Readable := by
    intro d
    obtain ⟨t, ht, hreadable⟩ := ScheduleStore.manageTask_of_readable hs d
    rw [ScheduleStore.manage, ht]
    exact hreadable
  cases event with
  | loadDiscoveries env file => exact (loadDiscoveries_readable hs env file).1
  | manageWalk expiryTime walk => exact hmanage _
  | managePoll poll => exact hmanage _
  | delete test pattern => exact hs.deleteWhere _ _

/-- **A load returns exactly if every entry is sound**, whatever came before: the schedules that
are there cannot stop it. -/
theorem loadDiscoveries_ok_iff (events : List ScheduleEvent) (env : DiscoveryLoaderEnv)
    (file : Except PyError DiscoveryRuntime) :
    (loadDiscoveries env file (Run.final scheduleStep ScheduleStore.empty events)).2 = .ok () ↔
      ∃ config autodiscovery, file = .ok config ∧ config.autodiscovery = some autodiscovery ∧
        ∀ item ∈ autodiscovery.entries, SoundEntry env config.ipv6Enabled item := by
  have hs : (Run.final scheduleStep ScheduleStore.empty events).Readable :=
    Run.final_of_steps ScheduleStore.readable_empty fun event _ _ hs =>
      readable_scheduleStep hs event
  exact (loadDiscoveries_readable hs env file).2

/-- **After a load the discoveries are those of the configuration**, whatever loads, walks, polls
and removals came before: each entry that is no IPv6 network, or may be one, has the schedule
built from it, no other discovery has one, and walks and polls are as they were. -/
theorem discovery_schedules_exact (events : List ScheduleEvent) {env : DiscoveryLoaderEnv}
    {config : DiscoveryRuntime}
    (h : (loadDiscoveries env (.ok config)
      (Run.final scheduleStep ScheduleStore.empty events)).2 = .ok ()) :
    let s := Run.final scheduleStep ScheduleStore.empty events
    let s' := (loadDiscoveries env (.ok config) s).1
    (∀ k e, s'.lookup? k = some e ∧ e.task = discoveryTask ↔
      ∃ key record frequency, Scheduled env config key record frequency ∧
        k = discoveryKey key ∧ e = discoveryEntry env record frequency) ∧
    ∀ k e, e.task ≠ discoveryTask → (s'.lookup? k = some e ↔ s.lookup? k = some e) := by
  intro s s'
  obtain ⟨x, hs⟩ := discoveriesOwned_final events
  have hlookup : ∀ k e, s'.lookup? k = some e ↔
      (∃ key record frequency, Scheduled env config key record frequency ∧
        k = discoveryKey key ∧ e = discoveryEntry env record frequency) ∨
      s.lookup? k = some e ∧ e.task ≠ discoveryTask := loadDiscoveries_ok hs (Prod.ext rfl h)
  constructor
  · intro k e
    rw [hlookup]
    constructor
    · rintro ⟨hscheduled | ⟨-, hne⟩, htask⟩
      · exact hscheduled
      · exact absurd htask hne
    · rintro ⟨key, record, frequency, hscheduled, hk, rfl⟩
      exact ⟨.inl ⟨key, record, frequency, hscheduled, hk, rfl⟩, rfl⟩
  · intro k e hne
    rw [hlookup]
    constructor
    · rintro (⟨key, record, frequency, -, -, rfl⟩ | ⟨hold, -⟩)
      · exact absurd rfl hne
      · exact hold
    · exact fun hold => .inr ⟨hold, hne⟩

/-- A network without IPv6, which is loaded after another one. -/
theorem discovery_schedules_exact_lan :
    let env : DiscoveryLoaderEnv := ⟨plainDiscovery, fun _ => false, fun _ => Dict.empty, 60⟩
    let settings : DiscoveryConfig := ⟨Dict.ofList [("network_address", .str "192.0.2.0/30"),
      ("frequency", .int 86400)], none⟩
    let old : DiscoveryRuntime := ⟨.bool false, some (Dict.empty.insert "old" (some settings))⟩
    let lan : DiscoveryRuntime := ⟨.bool false, some (Dict.empty.insert "lan" (some settings))⟩
    let s := (loadDiscoveries env (.ok lan)
      (Run.final scheduleStep ScheduleStore.empty [.loadDiscoveries env (.ok old)])).1
    ∃ e, s.lookup? (discoveryKey "lan") = some e ∧ e.task = discoveryTask := by
  intro env settings old lan s
  have hrecord : DiscoveryRecord.ofKeywords env.toDiscoveryEnv (settings.named "lan") =
      .ok { portRecord (some 161) with
        discoveryName := some "lan", networkAddress := some "192.0.2.0/30",
        frequency := some 86400 } := rfl
  have hs : (Run.final scheduleStep ScheduleStore.empty
      [.loadDiscoveries env (.ok old)]).Readable := by
    rw [Run.final_cons, Run.final_nil]
    exact readable_scheduleStep ScheduleStore.readable_empty _
  have hok : (loadDiscoveries env (.ok lan) (Run.final scheduleStep ScheduleStore.empty
      [.loadDiscoveries env (.ok old)])).2 = .ok () := by
    refine (loadDiscoveries_readable hs env _).2.mpr ⟨lan, _, rfl, rfl, fun item hitem => ?_⟩
    obtain rfl := List.mem_singleton.mp hitem
    exact ⟨settings, _, _, rfl, hrecord, rfl, .inr rfl⟩
  exact ⟨_, ((discovery_schedules_exact _ hok).1 _ _).mpr ⟨"lan", _, 86400, ⟨_, some settings, rfl,
    rfl, settings, _, rfl, hrecord, rfl, .inl rfl, rfl⟩, rfl, rfl⟩⟩

end Sc4snmp
