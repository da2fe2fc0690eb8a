import Sc4snmp.Common.ConfigGathering
import Sc4snmp.Inventory.LineConversion
import Sc4snmp.Inventory.Loader
import Sc4snmp.Inventory.WalkSchedules
import Sc4snmp.Lib.Agreement

/-!
# Turning the UI on

`load` of `inventory/loader.py` as a whole, for a database of the present schema: the UI
collections, the expiry times, the groups and the profiles, the hosts of the inventory and
their records.  The first load that takes its configuration from the database works on copies
of the files it has just made, with the columns of the inventory converted; it should leave
what a load from the files leaves.

It does so for lines the conversion does not change the meaning of, whatever else is in them.

## Main definitions

* `LoadSetup`, `Installation`, `load` — the settings, what is stored, and the source.
* `SameOutcome` — what two loads leave is the same, the UI collections apart.

## Main results

* `load_configured` — **what a load leaves in the groups and the profiles**.
* `getAllHosts_alike`, `manageLines_alike` — the hosts and their records.
* `load_switch` — **the first load with the UI leaves what a load without it leaves**.
-/

namespace Sc4snmp

open UiMigration

/-! ### A load -/

/-- The inventory file. -/
inductive InventoryFile
  | lines (lines : List SourceRecord)
  /-- The deployment made a directory of it. -/
  | directory
  | unreadable

/-- The settings of a load, with its files and the operations on the UI collections that
fail. -/
structure LoadSetup where
  /-- `CONFIG_FROM_MONGO`. -/
  configFromMongo : Bool
  lookup : AddressLookup
  deleteSchedules : DeleteSchedulesByTarget
  enableFullWalk : Bool
  chainOfTasksExpiryTime : ℤ
  /-- The files of the package, in the order they are listed. -/
  profileFiles : List (Dict String ConfigElement)
  config : RuntimeConfig
  inventory : InventoryFile
  fails : UiOperation → Option ℕ

/-- What is stored between loads. -/
structure Installation where
  ui : UiDatabase ConfigElement
  groups : List (String × List GroupObject)
  profiles : List (String × ProfileBody)
  db : InventoryDb

namespace LoadSetup

/-- The load as the migration of the UI sees it. -/
def uiLoad (setup : LoadSetup) : UiLoad ConfigElement where
  configFromMongo := setup.configFromMongo
  inventory := match setup.inventory with
    | .lines lines => some lines
    | _ => none
  config := setup.config.forUi
  fails := setup.fails

/-- The lines that `get_all_hosts` reads. -/
def inventoryLines (setup : LoadSetup) (ui : UiDatabase ConfigElement) :
    Except PyError (List SourceRecord) :=
  if setup.configFromMongo then .ok ui.inventoryUi
  else match setup.inventory with
    | .lines lines => .ok lines
    | .directory => .ok []
    | .unreadable => .error .other

/-- The settings of the loop over the records. -/
def loaderEnv (setup : LoadSetup) (runtimeProfiles : Dict String ProfileBody)
    (expiryTimeChanged : Bool) : LoaderEnv where
  lookup := setup.lookup
  deleteSchedules := setup.deleteSchedules
  configFromMongo := setup.configFromMongo
  config :=
    { runtimeProfiles
      enableFullWalk := setup.enableFullWalk
      chainOfTasksExpiryTime := setup.chainOfTasksExpiryTime }
  expiryTimeChanged

end LoadSetup

/-- `return_collection` of documents that nobody is writing. -/
def storedCollection {ν : Type} (documents : List (String × ν)) : Dict String ν :=
  returnCollection (List.replicate 3 documents)

/-- `load`, for a database of the present schema.  Of a load that raises only the exception
is left here. -/
def load (setup : LoadSetup) (st : Installation) : Except PyError (Installation × Bool) := do
  let (ui, configured) := configureUiDatabase setup.uiLoad st.ui
  configured
  let (expiryTimeChanged, schedules) :=
    st.db.schedules.didExpiryTimeChange setup.chainOfTasksExpiryTime expiringTasks
  let previousGroups := storedCollection st.groups
  let gatheredProfiles ← ProfilesManager.gatherElements setup.profileFiles setup.configFromMongo
    setup.config ui.profilesUi
  let profiles := ProfilesManager.updateAll
    (gatheredProfiles.mapValues ConfigElement.asProfile) st.profiles
  let gatheredGroups ← GroupsManager.gatherElements setup.configFromMongo setup.config ui.groupsUi
  let groups := GroupsManager.updateAll gatheredGroups st.groups
  let lines ← setup.inventoryLines ui
  let env := setup.loaderEnv (storedCollection profiles) expiryTimeChanged
  let (loaded, inventoryErrors) ← loadInventory env previousGroups (storedCollection groups) lines
    { db := { st.db with schedules }, inventoryUi := ui.inventoryUi }
  return ({ ui := { ui with inventoryUi := loaded.inventoryUi }, groups, profiles,
            db := loaded.db }, inventoryErrors)

/-! ### The hosts of the inventory -/

/-- A host of some group has a security engine of its own. -/
def ownEngines (groups : Groups) : Bool :=
  groups.entries.any fun group => group.2.any fun o => o.securityEngine.isSome

theorem ownEngines_of_returnElement {groups : Groups} {groupName : String}
    {hosts : List GroupObject} (h : returnElement groups groupName = some hosts)
    {o : GroupObject} (ho : o ∈ hosts) (hengine : o.securityEngine.isSome = true) :
    ownEngines groups = true := by
  obtain ⟨group, hgroup, rfl⟩ := Option.map_eq_some_iff.mp h
  exact List.any_eq_true.mpr ⟨group, List.mem_of_find?_eq_some hgroup,
    List.any_eq_true.mpr ⟨o, ho, hengine⟩⟩

/-- The processor has collected the same from the file as from its copy. -/
structure ProcessedAlike (fullWalk ownEngines : Bool) (st st' : ProcessorState) : Prop where
  records : List.Forall₂ (Alike fullWalk ownEngines) st.inventoryRecords st'.inventoryRecords
  hosts : st'.hostsFromGroups = st.hostsFromGroups
  mapping : ∀ groupName address,
    transformAddressToKey address (st'.inventoryGroupPortMapping.getD groupName (.int 161)) =
      transformAddressToKey address (st.inventoryGroupPortMapping.getD groupName (.int 161))
  single : List.Forall₂ (Alike fullWalk ownEngines) st.singleHosts st'.singleHosts

section Processing

variable {fullWalk : Bool} {groups : Groups} {st st' : ProcessorState} {line row : SourceRecord}

/-- The port that stands for a group gives the keys that its own port gives. -/
theorem transformAddressToKey_groupPort (address port : PyVal) :
    transformAddressToKey address (if port.truthy then port else .int 161) =
      transformAddressToKey address port := by
  cases h : port.truthy with
  | true => rfl
  | false =>
    rw [if_neg (by simp), transformAddressToKey_int, transformAddressToKey, h]
    simp only [Bool.not_false, if_true]
    rw [String.append_assoc]
    rfl

theorem getGroupHosts_alike (h : ProcessedAlike fullWalk (ownEngines groups) st st')
    (halike : Alike fullWalk (ownEngines groups) line row) (groupName : String) :
    EndsAlike (ProcessedAlike fullWalk (ownEngines groups)) (getGroupHosts groups line groupName st)
      (getGroupHosts groups row groupName st') := by
  unfold getGroupHosts
  split
  · exact .raises _
  cases hfound : returnElement groups groupName with
  | none => exact .returns ⟨h.records, h.hosts, h.mapping, List.rel_append h.single
      (.cons halike .nil)⟩
  | some hosts =>
    obtain ⟨port, port', hport, hport', hports⟩ := halike.port
    simp only [SourceRecord.getItem, hport, hport', bind, Except.bind, addGroupHosts_eq]
    refine .returns ⟨List.rel_append h.records ?_, ?_, ?_, h.single⟩
    · rw [List.forall₂_map_left_iff, List.forall₂_map_right_iff, List.forall₂_same]
      exact fun o ho => halike.hostGroupObject groupName
        (ownEngines_of_returnElement hfound ho)
    · rw [h.hosts]
    · intro name address
      simp only [Dict.getD, Dict.get?_insert]
      split
      · simp only [Option.getD_some, transformAddressToKey_groupPort]
        exact hports.key address
      · exact h.mapping name address

/-- **A line and its row are processed alike.** -/
theorem processLine_alike (h : ProcessedAlike fullWalk (ownEngines groups) st st')
    (halike : Alike fullWalk (ownEngines groups) line row) :
    EndsAlike (ProcessedAlike fullWalk (ownEngines groups)) (processLine groups st line)
      (processLine groups st' row) := by
  have haddress : row.getItem "address" = line.getItem "address" := by
    rw [SourceRecord.getItem, SourceRecord.getItem, halike.kept "address" (by decide)]
  have hsingle : ProcessedAlike fullWalk (ownEngines groups)
      { st with singleHosts := st.singleHosts ++ [line] }
      { st' with singleHosts := st'.singleHosts ++ [row] } :=
    ⟨h.records, h.hosts, h.mapping, List.rel_append h.single (.cons halike .nil)⟩
  unfold processLine
  rw [haddress]
  refine (EndsAlike.same (R := Eq) (line.getItem "address") fun _ _ => rfl).bind ?_
  rintro v _ rfl
  cases v with
  | none => exact .raises _
  | bool b => exact .raises _
  | int i => exact .raises _
  | str address =>
    simp only
    split
    · exact .raises _
    · exact .returns h
    · split
      · exact .returns hsingle
      · exact getGroupHosts_alike h halike address

theorem singleHostKey_alike {engines : Bool} (halike : Alike fullWalk engines line row) :
    singleHostKey row = singleHostKey line := by
  obtain ⟨port, port', hport, hport', hports⟩ := halike.port
  unfold singleHostKey
  simp only [SourceRecord.getItem, SourceRecord.get, Dict.getD, hport, hport',
    halike.kept "address" (by decide), Option.getD_some, hports.key]

theorem placeSingleHosts_alike {engines : Bool} (hostsFromGroups : Dict String Unit)
    {single single' : List SourceRecord}
    (h : List.Forall₂ (Alike fullWalk engines) single single') :
    EndsAlike (List.Forall₂ (Alike fullWalk engines)) (placeSingleHosts hostsFromGroups single)
      (placeSingleHosts hostsFromGroups single') := by
  induction h with
  | nil => exact .returns .nil
  | cons halike _ ih =>
    unfold placeSingleHosts
    rw [singleHostKey_alike halike]
    refine (EndsAlike.same (R := Eq) _ fun _ _ => rfl).bind ?_
    rintro host _ rfl
    refine ih.bind fun rest rest' hrest => ?_
    split
    · exact .returns hrest
    · exact .returns (.cons halike hrest)

/-- The lines that are not commented out. -/
def listedLines (lines : List SourceRecord) : List SourceRecord :=
  lines.filter fun line => decide (isComment line ≠ .ok true)

theorem isComment_of_convertLine (h : convertLine line = .ok row) :
    isComment row = isComment line := by
  rw [isComment, isComment, SourceRecord.getItem, SourceRecord.getItem,
    get?_address_of_convertLine h]

theorem listed_of_isComment (h : isComment line = .ok false) : Listed line :=
  isComment_eq_ok_iff.mp h

/-- The loop over the lines skips the ones that are commented out. -/
theorem foldlM_processLine_listedLines (lines : List SourceRecord) (st : ProcessorState) :
    lines.foldlM (processLine groups) st = (listedLines lines).foldlM (processLine groups) st := by
  induction lines generalizing st with
  | nil => rfl
  | cons line lines ih =>
    rw [List.foldlM_cons, listedLines, List.filter_cons]
    by_cases hcomment : isComment line = .ok true
    · obtain ⟨address, haddress, hstarts⟩ := isComment_eq_ok_iff.mp hcomment
      obtain ⟨cs, hcs⟩ : ∃ cs, address.toList = '#' :: cs := by
        rw [Text.startsWith, List.isPrefixOf_iff_prefix] at hstarts
        obtain ⟨cs, hcs⟩ := hstarts
        exact ⟨cs, hcs.symm⟩
      have hskip : processLine groups st line = .ok st := by
        simp only [processLine, SourceRecord.getItem, haddress, bind, Except.bind, hcs]
      rw [hskip, if_neg (by simp [hcomment])]
      exact ih st
    · rw [if_pos (by simp [hcomment]), List.foldlM_cons]
      exact congrArg _ (funext fun st' => ih st')

/-- The copies stand for the lines that are not commented out. -/
theorem forall₂_convertInventory {engines : Bool} {lines rows : List SourceRecord}
    (hrows : convertInventory lines = .ok rows)
    (hportable : ∀ line ∈ lines, Listed line → Portable fullWalk engines line) :
    List.Forall₂ (Alike fullWalk engines) (listedLines lines) rows := by
  induction lines generalizing rows with
  | nil =>
    cases hrows
    exact .nil
  | cons line lines ih =>
    rw [List.forall_mem_cons] at hportable
    simp only [convertInventory, PyError.bind_eq_ok] at hrows
    obtain ⟨row, hrow, comment, hcomment, rest, hrest, hrows⟩ := hrows
    rw [isComment_of_convertLine hrow] at hcomment
    rw [listedLines, List.filter_cons]
    cases comment with
    | true =>
      cases hrows
      rw [if_neg (by simp [hcomment])]
      exact ih hrest hportable.2
    | false =>
      cases hrows
      rw [if_pos (by simp [hcomment])]
      exact .cons (alike_of_convertLine (hportable.1 (listed_of_isComment hcomment)) hrow)
        (ih hrest hportable.2)

/-- What the inventory is read as. -/
structure HostsAlike (fullWalk ownEngines : Bool)
    (hosts hosts' : List SourceRecord × Dict String PyVal) : Prop where
  lines : List.Forall₂ (Alike fullWalk ownEngines) hosts.1 hosts'.1
  mapping : ∀ groupName address,
    transformAddressToKey address (hosts'.2.getD groupName (.int 161)) =
      transformAddressToKey address (hosts.2.getD groupName (.int 161))

/-- **`get_all_hosts` finds the same hosts in the file and in its copy.** -/
theorem getAllHosts_alike {lines rows : List SourceRecord}
    (hrows : convertInventory lines = .ok rows)
    (hportable : ∀ line ∈ lines, Listed line → Portable fullWalk (ownEngines groups) line) :
    EndsAlike (HostsAlike fullWalk (ownEngines groups)) (getAllHosts groups lines)
      (getAllHosts groups rows) := by
  have hnew : ProcessedAlike fullWalk (ownEngines groups) ProcessorState.new ProcessorState.new :=
    ⟨.nil, rfl, fun _ _ => rfl, .nil⟩
  have hlines : EndsAlike (ProcessedAlike fullWalk (ownEngines groups))
      (lines.foldlM (processLine groups) ProcessorState.new)
      (rows.foldlM (processLine groups) ProcessorState.new) := by
    rw [foldlM_processLine_listedLines]
    exact EndsAlike.foldlM (forall₂_convertInventory hrows hportable)
      (fun _ _ _ _ halike h => processLine_alike h halike) hnew
  unfold getAllHosts
  refine hlines.bind fun st st' h => ?_
  rw [h.hosts]
  exact (placeSingleHosts_alike _ h.single).bind fun single single' hsingle =>
    .returns ⟨List.rel_append h.records hsingle, h.mapping⟩

/-- The hosts that left their groups are the same. -/
theorem returnHostsFromDeletedGroups_congr (previousGroups newGroups : Groups)
    {mapping mapping' : Dict String PyVal}
    (h : ∀ groupName address, transformAddressToKey address (mapping'.getD groupName (.int 161)) =
      transformAddressToKey address (mapping.getD groupName (.int 161))) :
    returnHostsFromDeletedGroups previousGroups newGroups mapping' =
      returnHostsFromDeletedGroups previousGroups newGroups mapping := by
  have hkeys : ∀ (hosts : List GroupObject) (groupName : String),
      getGroupsKeys hosts groupName mapping' = getGroupsKeys hosts groupName mapping := by
    intro hosts groupName
    unfold getGroupsKeys
    refine congrArg (fun f => hosts.mapM f) (funext fun o => ?_)
    cases o.port with
    | none => exact h groupName _
    | some port => rfl
  simp only [returnHostsFromDeletedGroups, hkeys]

end Processing

/-! ### The records -/

section Records

variable {env env' : LoaderEnv} {engines : Bool}

/-- The settings of two loads that differ in the source of the configuration. -/
structure EnvsAlike (env env' : LoaderEnv) : Prop where
  lookup : env'.lookup = env.lookup
  deleteSchedules : env'.deleteSchedules = env.deleteSchedules
  config : env'.config = env.config
  expiryTimeChanged : env'.expiryTimeChanged = env.expiryTimeChanged
  file : env.configFromMongo = false

/-- A record does the same to the database, and raises the same. -/
theorem processRecord_alike (henv : EnvsAlike env env') {line row : SourceRecord}
    (halike : Alike env.config.enableFullWalk engines line row) {st st' : LoaderState}
    (hdb : st'.db = st.db) :
    (processRecord env' st' row).1.db = (processRecord env st line).1.db ∧
      (processRecord env' st' row).2 = (processRecord env st line).2 := by
  unfold processRecord
  rw [henv.lookup, halike.ofSource_eq, henv.deleteSchedules, henv.config, henv.expiryTimeChanged,
    hdb]
  cases InventoryRecord.ofSource env.lookup line with
  | error err => exact ⟨hdb, rfl⟩
  | ok ir =>
    simp only
    split
    · split <;> exact ⟨rfl, rfl⟩
    · rw [halike.update_eq rfl]
      exact ⟨rfl, rfl⟩

/-- The handler gets through alike: the row has all the columns it reads. -/
theorem reportLine_alike (henv : EnvsAlike env env') {line row : SourceRecord}
    (halike : Alike env.config.enableFullWalk engines line row) {st st' : LoaderState}
    (hdb : st'.db = st.db) :
    EndsAlike (fun st st' => st'.db = st.db) (reportLine env st line)
      (reportLine env' st' row) := by
  have haddress : row.getItem "address" = line.getItem "address" := by
    rw [SourceRecord.getItem, SourceRecord.getItem, halike.kept "address" (by decide)]
  obtain ⟨port, port', hport, hport', hports⟩ := halike.port
  obtain ⟨_, flag, -, -, hdelete⟩ := halike.delete
  have hline : line.getItem "port" = .ok port := SourceRecord.getItem_eq_ok_iff.mpr hport
  have hrow : row.getItem "port" = .ok port' := SourceRecord.getItem_eq_ok_iff.mpr hport'
  have hflag : row.getItem "delete" = .ok (.bool flag) := SourceRecord.getItem_eq_ok_iff.mpr hdelete
  cases haddr : line.getItem "address" with
  | error err =>
    -- whatever the handler does first, it raises at the address
    have hraises : reportLine env' st' row = .error err := by
      unfold reportLine deleteReported
      rw [haddress, haddr, hflag]
      cases env'.configFromMongo <;> cases flag <;> rfl
    have hraises' : reportLine env st line = .error err := by
      unfold reportLine deleteReported
      rw [haddr, henv.file]
      rfl
    rw [hraises, hraises']
    exact .raises err
  | ok address =>
    have hdeleted : ∃ lines, deleteReported env' row st'.inventoryUi = .ok lines := by
      unfold deleteReported
      rw [haddress, haddr, hflag, hrow]
      cases env'.configFromMongo <;> cases flag <;> exact ⟨_, rfl⟩
    obtain ⟨lines, hlines⟩ := hdeleted
    have hkept : deleteReported env line st.inventoryUi = .ok st.inventoryUi := by
      rw [deleteReported, henv.file]
      rfl
    unfold reportLine
    rw [hlines, hkept, haddress, haddr, hrow, hline]
    simp only [bind, Except.bind]
    rw [hports.key address]
    cases transformAddressToKey address port with
    | error err => exact .raises err
    | ok key => exact .returns hdb

/-- **The loop over the lines leaves the same database, with the same errors.** -/
theorem manageLines_alike (henv : EnvsAlike env env') {lines rows : List SourceRecord}
    (h : List.Forall₂ (Alike env.config.enableFullWalk engines) lines rows)
    (inventoryErrors : Bool) {st st' : LoaderState} (hdb : st'.db = st.db) :
    EndsAlike (fun r r' => r'.1.db = r.1.db ∧ r'.2 = r.2)
      (manageLines env lines inventoryErrors st) (manageLines env' rows inventoryErrors st') := by
  induction h generalizing inventoryErrors st st' with
  | nil => exact .returns ⟨hdb, rfl⟩
  | @cons line row lines rows halike _ ih =>
    obtain ⟨hnext, hresult⟩ := processRecord_alike henv halike hdb
    unfold manageLines
    rcases hline : processRecord env st line with ⟨next, result⟩
    rcases hrow : processRecord env' st' row with ⟨next', result'⟩
    rw [hline, hrow] at hnext hresult
    simp only at hnext hresult
    subst hresult
    cases result' with
    | ok u => exact ih inventoryErrors hnext
    | error err => exact (reportLine_alike henv halike hnext).bind fun _ _ hdb => ih true hdb

theorem deleteHosts_alike (henv : EnvsAlike env env') (hosts : List String) {st st' : LoaderState}
    (hdb : st'.db = st.db) :
    EndsAlike (fun st st' => st'.db = st.db) (deleteHosts env hosts st)
      (deleteHosts env' hosts st') := by
  induction hosts generalizing st st' with
  | nil => exact .returns hdb
  | cons host hosts ih =>
    unfold deleteHosts
    rw [henv.deleteSchedules, hdb]
    rcases InventoryRecordManager.delete env.deleteSchedules st.db host with ⟨db, result⟩
    cases result with
    | ok u => exact ih rfl
    | error err => exact .raises err

/-- **An inventory and its copy are loaded alike.** -/
theorem loadInventory_alike (henv : EnvsAlike env env') (previousGroups : Groups)
    {newGroups : Groups} {lines rows : List SourceRecord}
    (hrows : convertInventory lines = .ok rows)
    (hportable : ∀ line ∈ lines, Listed line →
      Portable env.config.enableFullWalk (ownEngines newGroups) line)
    {st st' : LoaderState} (hdb : st'.db = st.db) :
    EndsAlike (fun r r' => r'.1.db = r.1.db ∧ r'.2 = r.2)
      (loadInventory env previousGroups newGroups lines st)
      (loadInventory env' previousGroups newGroups rows st') := by
  unfold loadInventory
  refine (getAllHosts_alike hrows hportable).bind ?_
  rintro ⟨inventoryLines, mapping⟩ ⟨inventoryLines', mapping'⟩ halike
  simp only
  rw [returnHostsFromDeletedGroups_congr previousGroups newGroups halike.mapping]
  refine (EndsAlike.same (R := Eq) _ fun _ _ => rfl).bind ?_
  rintro hosts _ rfl
  unfold manageInventoryRecords
  exact (deleteHosts_alike henv hosts hdb).bind fun _ _ hdb =>
    manageLines_alike henv halike.lines false hdb

end Records

/-! ### The whole load -/

/-- A collection is read as it was written. -/
theorem storedCollection_entries {ν : Type} (elements : Dict String ν) :
    storedCollection elements.entries = elements := by
  have honce : returnCollectionOnce elements.entries = elements := Dict.ofList_entries elements
  rcases returnCollection_cases (List.replicate 3 elements.entries) with
    ⟨hnone, hread⟩ | ⟨documents, hmem, -, hread⟩
  · rw [storedCollection, hread]
    refine Dict.eq_of_entries ?_
    exact (hnone elements.entries (List.mem_replicate.mpr ⟨by decide, rfl⟩)).symm
  · rw [storedCollection, hread, (List.mem_replicate.mp hmem).2, honce]

namespace LoadSetup

/-- The settings with the UI on or off. -/
def withUi (setup : LoadSetup) (configFromMongo : Bool) : LoadSetup :=
  { setup with configFromMongo }

/-- The groups of the configuration file. -/
def fileGroups (setup : LoadSetup) : Groups :=
  match GroupsManager.gatherElements false setup.config [] with
  | .ok elements => GroupsManager.validateElements (elements.getD Dict.empty)
  | .error _ => Dict.empty

end LoadSetup

/-- The groups that a load has stored are the ones it has gathered. -/
theorem storedCollection_updateAll (elements : Option (Dict String ConfigElement))
    (documents : List (String × List GroupObject)) :
    storedCollection (GroupsManager.updateAll elements documents) =
      GroupsManager.validateElements (elements.getD Dict.empty) := by
  rw [GroupsManager.updateAll, documents_updateCollection, storedCollection_entries]

/-- **What a load that returns leaves in the groups and the profiles**, wherever it has them
from: under each name what is said last, as far as a schema accepts it. -/
theorem load_configured {setup : LoadSetup} {st st' : Installation} {inventoryErrors : Bool}
    (h : load setup st = .ok (st', inventoryErrors)) (name : String) :
    (storedCollection st'.profiles).get? name =
        (saidProfile setup.profileFiles (configuredProfiles setup.configFromMongo setup.config
          st'.ui.profilesUi) name).bind ConfigElement.validProfile? ∧
      (storedCollection st'.groups).get? name =
        ((configuredGroups setup.configFromMongo setup.config st'.ui.groupsUi).reverse.lookup
          name).bind ConfigElement.asGroup := by
  unfold load at h
  rcases configureUiDatabase setup.uiLoad st.ui with ⟨ui, configured⟩
  simp only [PyError.bind_eq_ok] at h
  obtain ⟨_, -, gatheredProfiles, hprofiles, gatheredGroups, hgroups, lines, -,
    ⟨loaded, errors⟩, -, h⟩ := h
  cases h
  simp only
  rw [storedCollection_updateAll, ProfilesManager.updateAll, documents_updateCollection,
    storedCollection_entries]
  exact ⟨ProfilesManager.get?_validateProfiles_gatherElements hprofiles name,
    GroupsManager.get?_validateElements_gatherElements hgroups name⟩

/-- Nothing loaded yet. -/
def Installation.empty : Installation where
  ui := { usedUi := false, inventoryUi := [], groupsUi := [], profilesUi := [] }
  groups := []
  profiles := []
  db := InventoryDb.empty

/-- A profile that is shipped. -/
def shippedProfile : ConfigElement :=
  .mapping none (some { frequency := some 60, varBinds := some [] })

/-- A line that still has the old name of a column. -/
def oldNameLine : SourceRecord where
  columns := Dict.ofList [("address", .str "10.0.0.1"), ("port", .str "161"),
    ("version", .str "2c"), ("community", .str "public"), ("secret", .str ""),
    ("securityEngine", .str ""), ("walk_interval", .str "1800"), ("profiles", .str ""),
    ("smart_profiles", .str "t"), ("delete", .str "")]

/-- A load with this line, and a configuration that disables one of two shipped profiles. -/
def disablingSetup : LoadSetup where
  configFromMongo := false
  lookup := { isIpAddress := fun _ => true, resolves := fun _ _ => false }
  deleteSchedules := fun s _ => s
  enableFullWalk := false
  chainOfTasksExpiryTime := 60
  profileFiles := [Dict.ofList [("IF_profile", shippedProfile), ("TCP_profile", shippedProfile)]]
  config := .mapping .absent (.mapping (Dict.ofList [("IF_profile", .mapping (some false) none)]))
  inventory := .lines [oldNameLine]
  fails := fun _ => none

/-- The profile that is disabled is not in use. -/
theorem load_configured_disabled : ∃ st' : Installation,
    load disablingSetup Installation.empty = .ok (st', false) ∧
      (storedCollection st'.profiles).get? "IF_profile" = none := by
  have hreturns : ∃ st', load disablingSetup Installation.empty = .ok (st', false) := ⟨_, rfl⟩
  obtain ⟨st', hload⟩ := hreturns
  exact ⟨st', hload, (load_configured hload "IF_profile").1.trans rfl⟩

/-- Two loads leave the same, the UI collections apart, and report the same. -/
structure SameOutcome (r r' : Installation × Bool) : Prop where
  groups : r'.1.groups = r.1.groups
  profiles : r'.1.profiles = r.1.profiles
  db : r'.1.db = r.1.db
  inventoryErrors : r'.2 = r.2

/-- A load without the UI has nothing to do for it. -/
theorem configureUiDatabase_of_file {load : UiLoad ConfigElement} {db : UiDatabase ConfigElement}
    (hmongo : load.configFromMongo = false) (hfind : load.fails .findFlag = none)
    (hused : db.usedUi = false) : configureUiDatabase load db = (db, .ok ()) := by
  simp [configureUiDatabase, andThen, operate, hmongo, hfind, hused]

/-- The first load with the UI copies the files. -/
theorem configureUiDatabase_of_first {load : UiLoad ConfigElement} {db : UiDatabase ConfigElement}
    (hload : UiMigration.Undisturbed load) (hused : db.usedUi = false) :
    ∃ db', configureUiDatabase load db = (db', .ok ()) ∧ WholeCopy load db db' := by
  refine ⟨_, Prod.ext rfl ?_, wholeCopy_of_undisturbed hload hused⟩
  rw [configureUiDatabase_attempt hused hload.configFromMongo hload.findFlag hload.writeFlag]
  exact copy_ok_iff.mpr hload.copy

/-- **The first load with the UI leaves what a load without it leaves**: the groups, the
profiles, the inventory and the schedules, if no line of the inventory changes its meaning when
it is copied. -/
theorem load_switch (setup : LoadSetup) {st : Installation} {lines : List SourceRecord}
    (hlines : setup.inventory = .lines lines)
    (hui : st.ui = { usedUi := false, inventoryUi := [], groupsUi := [], profilesUi := [] })
    (hcopy : UiMigration.Undisturbed (setup.withUi true).uiLoad)
    (hportable : ∀ line ∈ lines, Listed line →
      Portable setup.enableFullWalk (ownEngines setup.fileGroups) line) :
    EndsAlike SameOutcome (load (setup.withUi false) st) (load (setup.withUi true) st) := by
  have hused : st.ui.usedUi = false := by rw [hui]
  have hfile : configureUiDatabase (setup.withUi false).uiLoad st.ui = (st.ui, .ok ()) :=
    configureUiDatabase_of_file rfl hcopy.findFlag hused
  obtain ⟨ui, hfirst, lines', rows, groups, profiles, hlines', hrows, hread, hinventoryUi,
    hgroupsUi, hprofilesUi⟩ := configureUiDatabase_of_first hcopy hused
  have hinventory : (setup.withUi true).uiLoad.inventory = some lines := by
    simp only [LoadSetup.uiLoad, LoadSetup.withUi, hlines]
  cases hinventory.symm.trans hlines'
  rw [hui, List.nil_append] at hinventoryUi hgroupsUi hprofilesUi
  have henv : ∀ runtimeProfiles expiryTimeChanged,
      EnvsAlike ((setup.withUi false).loaderEnv runtimeProfiles expiryTimeChanged)
        ((setup.withUi true).loaderEnv runtimeProfiles expiryTimeChanged) :=
    fun _ _ => ⟨rfl, rfl, rfl, rfl, rfl⟩
  -- both loads gather the same groups and profiles
  have hgroups : GroupsManager.gatherElements true setup.config groups =
      GroupsManager.gatherElements false setup.config [] := gatherGroups_switch hread
  have hprofiles : ProfilesManager.gatherElements setup.profileFiles true setup.config profiles =
      ProfilesManager.gatherElements setup.profileFiles false setup.config [] :=
    gatherProfiles_switch hread setup.profileFiles
  unfold load
  rw [hfile, hfirst]
  simp only [LoadSetup.withUi]
  refine (EndsAlike.returns (R := Eq) rfl).bind ?_
  rintro _ _ rfl
  rw [hui, hprofilesUi, hgroupsUi]
  simp only
  rw [hprofiles, hgroups]
  refine (EndsAlike.same (R := Eq) _ fun _ _ => rfl).bind ?_
  rintro gatheredProfiles _ rfl
  refine (EndsAlike.same (R := fun a b => b = a ∧
    GroupsManager.gatherElements false setup.config [] = .ok a) _ fun _ h => ⟨rfl, h⟩).bind ?_
  rintro _ gatheredGroups ⟨rfl, hgathered⟩
  rw [storedCollection_updateAll]
  have hfileGroups : GroupsManager.validateElements (gatheredGroups.getD Dict.empty) =
      setup.fileGroups := by
    rw [LoadSetup.fileGroups, hgathered]
  simp only [LoadSetup.inventoryLines, hlines, hinventoryUi, hfileGroups, if_true,
    Bool.false_eq_true, if_false]
  refine (EndsAlike.returns (R := fun a b => a = lines ∧ b = rows) ⟨rfl, rfl⟩).bind ?_
  rintro _ _ ⟨rfl, rfl⟩
  rw [← hlines]
  refine EndsAlike.bind (loadInventory_alike (henv _ _) _ hrows hportable ?_) ?_
  · rfl
  · rintro ⟨loaded, inventoryErrors⟩ ⟨loaded', inventoryErrors'⟩ ⟨hdb, herrors⟩
    exact .returns ⟨rfl, rfl, hdb, herrors⟩

theorem convertible_oldNameLine : Convertible oldNameLine where
  delete := ⟨_, false, rfl, by decide +kernel⟩
  smartProfiles := ⟨_, true, rfl, by decide +kernel⟩
  port := .inr ⟨161, by decide +kernel⟩
  walkInterval := ⟨_, 1800, rfl, by decide +kernel⟩
  maxOid := .inl rfl
  address := ⟨_, rfl⟩

theorem listed_oldNameLine : Listed oldNameLine := ⟨_, rfl, by decide +kernel⟩

theorem undisturbed_disablingSetup :
    UiMigration.Undisturbed (disablingSetup.withUi true).uiLoad where
  configFromMongo := rfl
  findFlag := rfl
  writeFlag := rfl
  copy := ⟨⟨_, rfl, List.forall_mem_singleton.mpr convertible_oldNameLine,
    ⟨_, List.mem_singleton_self _, listed_oldNameLine⟩, rfl⟩, _, _, rfl, .inl rfl, .inr rfl⟩

theorem portable_oldNameLine : Portable false false oldNameLine where
  port := ⟨_, rfl, .inr (.inr ⟨161, by decide, rfl⟩)⟩
  walkInterval := by
    refine ⟨_, rfl, .inr ?_⟩
    intro n hn
    have hinterval : (PyVal.str "1800").toInt = .ok 1800 := by decide +kernel
    rw [hinterval] at hn
    cases hn
    decide
  smartProfiles := by
    intro raw hraw
    cases hraw
    decide +kernel
  engine := by simp

/-- The line of the example is copied with its meaning. -/
theorem load_switch_disabling : EndsAlike SameOutcome
    (load (disablingSetup.withUi false) Installation.empty)
    (load (disablingSetup.withUi true) Installation.empty) :=
  load_switch disablingSetup rfl rfl undisturbed_disablingSetup
    (List.forall_mem_singleton.mpr fun _ => portable_oldNameLine)

end Sc4snmp
