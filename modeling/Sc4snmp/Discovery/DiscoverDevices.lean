import Sc4snmp.Common.DiscoveryRecord
import Sc4snmp.Discovery.DeviceGroup
import Sc4snmp.Discovery.DeviceStore

/-!
# Discoveries

`Discovery.do_work` asks every host of a network for its description.  Those that answer get a
group by it and go into the store, under the name of the discovery.  A host whose check fails
is passed over.

What the network answers is a parameter, and may be another one at every run; so is `str` of a
group that is no text.

## Main definitions

* `checkSnmpDevice`, `Discovery.scan`, `discoverSnmpDevices`, `Discovery.doWork` — the source.
* `IsDevice` — a host answers, and this is what is written down about it.
* `DiscoveryTask`, `taskStep` — a discovery that is run, and what it does to the file.

## Main results

* `Discovery.doWork_eq` — a discovery is a run of the store.
* `discoveries_stored` — **every row is that of a device which answered, and the next discovery
  stores its own**.
* `discovered_port_accepted` — the inventory takes the ports of the rows.
-/

namespace Sc4snmp

/-- What `get_cmd` returns. -/
structure SnmpAnswer where
  errorIndication : Bool
  errorStatus : ℤ
  varBinds : List (String × String)

/-- What a discovery depends on. -/
structure DiscoveryNetwork where
  /-- `get_host_list`. -/
  getHostList : Option String → Except PyError (List String)
  /-- The request for `sysDescr` at the address of the record. -/
  getCmd : DiscoveryRecord → Except PyError SnmpAnswer
  variants : Char → List Char
  strOf : Json → String

/-! ### The source -/

/-- The text of a group in a row. -/
def groupText (network : DiscoveryNetwork) : Json → Option String
  | .null => none
  | .str s => some s
  | group => some (network.strOf group)

/-- The rules of a record as a value. -/
def DiscoveryRecord.rulesValue (record : DiscoveryRecord) : Json :=
  match record.deviceRules with
  | some rules => .arr rules
  | none => .null

/-- What is written down about a device. -/
def deviceDetail (network : DiscoveryNetwork) (record : DiscoveryRecord) (ip : String)
    (group : Json) : DeviceDetail where
  key := record.discoveryName
  subnet := record.networkAddress
  ip := some ip
  port := record.port.map toString
  version := record.version
  group := groupText network group
  secret := record.secret
  community := record.community

/-- `check_snmp_device`. -/
def checkSnmpDevice (network : DiscoveryNetwork) (record : DiscoveryRecord) (ip : String) :
    Except PyError (Option DeviceDetail) := do
  let answer ← network.getCmd { record with address := some ip }
  if answer.errorIndication then return none
  if answer.errorStatus ≠ 0 then return none
  let groupName ← findDeviceGroup network.variants answer.varBinds record.rulesValue
  return some (deviceDetail network record ip groupName)

/-- `_scan`: a check that fails finds nothing. -/
def Discovery.scan (network : DiscoveryNetwork) (record : DiscoveryRecord) (ip : String) :
    Option DeviceDetail :=
  match checkSnmpDevice network record ip with
  | .ok result => result
  | .error _ => none

/-- `discover_snmp_devices`: the results come in the order of the hosts. -/
def discoverSnmpDevices (network : DiscoveryNetwork) (record : DiscoveryRecord)
    (ipList : List String) : List DeviceDetail :=
  ipList.filterMap (Discovery.scan network record)

/-- `do_work`; a `DiscoveryError` is `other`. -/
def Discovery.doWork (csv : CsvModule) (network : DiscoveryNetwork) (file : Option csv.File)
    (record : DiscoveryRecord) : Option csv.File × Except PyError (List DeviceDetail) :=
  match network.getHostList record.networkAddress with
  | .error _ => (file, .error .other)
  | .ok hostList =>
    let snmpDevicesDetail := discoverSnmpDevices network record hostList
    match addDevicesDetailToCsv csv file snmpDevicesDetail record.deleteAlreadyDiscovered
        record.discoveryName with
    | (file, .ok ()) => (file, .ok snmpDevicesDetail)
    | (file, .error _) => (file, .error .other)

/-! ### Devices -/

/-- A host answers without an error, and this is written down about it. -/
def IsDevice (network : DiscoveryNetwork) (record : DiscoveryRecord) (ip : String)
    (detail : DeviceDetail) : Prop :=
  ∃ answer group, network.getCmd { record with address := some ip } = .ok answer ∧
    answer.errorIndication = false ∧ answer.errorStatus = 0 ∧
    findDeviceGroup network.variants answer.varBinds record.rulesValue = .ok group ∧
    detail = deviceDetail network record ip group

variable {csv : CsvModule} {network : DiscoveryNetwork} {record : DiscoveryRecord}

/-- A host is found exactly if it is a device. -/
theorem Discovery.scan_eq_some_iff {ip : String} {detail : DeviceDetail} :
    Discovery.scan network record ip = some detail ↔ IsDevice network record ip detail := by
  unfold Discovery.scan checkSnmpDevice IsDevice
  cases network.getCmd { record with address := some ip } with
  | error err => simp [bind, Except.bind]
  | ok answer =>
    by_cases hindication : answer.errorIndication = true
    · simp [bind, Except.bind, pure, Except.pure, hindication]
    by_cases hstatus : answer.errorStatus = 0
    · cases hgroup : findDeviceGroup network.variants answer.varBinds record.rulesValue with
      | error err =>
        simp [bind, Except.bind, hindication, hstatus, hgroup]
      | ok group =>
        simpa [bind, Except.bind, pure, Except.pure, hindication, hstatus, hgroup] using eq_comm
    · simp [bind, Except.bind, pure, Except.pure, hindication, hstatus]

theorem mem_discoverSnmpDevices_iff {ipList : List String} {detail : DeviceDetail} :
    detail ∈ discoverSnmpDevices network record ipList ↔
      ∃ ip ∈ ipList, IsDevice network record ip detail := by
  simp only [discoverSnmpDevices, List.mem_filterMap, Discovery.scan_eq_some_iff]

/-! ### A discovery that is run -/

/-- A run of a discovery: its record, under a name without white space around it, and what the
network answers. -/
structure DiscoveryTask where
  network : DiscoveryNetwork
  record : DiscoveryRecord
  name : String
  named : record.discoveryName = some name
  stripped : stripText name = name

namespace DiscoveryTask

/-- The run of the store, with the devices among some hosts. -/
def run (task : DiscoveryTask) (hostList : List String) : DiscoveryRun where
  name := task.name
  stripped := task.stripped
  deleteFlag := task.record.deleteAlreadyDiscovered
  details := discoverSnmpDevices task.network task.record hostList
  key_eq := by
    intro detail hdetail
    obtain ⟨ip, -, answer, group, -, -, -, -, rfl⟩ := mem_discoverSnmpDevices_iff.mp hdetail
    exact task.named

/-- The row is that of a device of the network. -/
def Found (task : DiscoveryTask) (row : DeviceRow) : Prop :=
  ∃ hostList, task.network.getHostList task.record.networkAddress = .ok hostList ∧
    ∃ ip ∈ hostList, ∃ detail, IsDevice task.network task.record ip detail ∧
      row = normalizeRow detail

end DiscoveryTask

/-- What a discovery does to the file. -/
def taskStep (csv : CsvModule) (file : Option csv.File) (task : DiscoveryTask) :
    Option csv.File :=
  (Discovery.doWork csv task.network file task.record).1

/-- **A discovery is a run of the store.** -/
theorem Discovery.doWork_eq {file : Option csv.File} (hfile : FileInv csv file)
    (task : DiscoveryTask) {hostList : List String}
    (hhosts : task.network.getHostList task.record.networkAddress = .ok hostList) :
    Discovery.doWork csv task.network file task.record =
      (storeStep csv file (task.run hostList),
        .ok (discoverSnmpDevices task.network task.record hostList)) := by
  obtain ⟨rows, hrows, -, hnormalized⟩ := hfile
  have hrun := addDevicesDetailToCsv_eq hrows hnormalized (task.run hostList)
  have hadd : addDevicesDetailToCsv csv file
      (discoverSnmpDevices task.network task.record hostList)
      task.record.deleteAlreadyDiscovered task.record.discoveryName =
        (storeStep csv file (task.run hostList), .ok ()) := by
    rw [storeStep, hrun, task.named]
    exact hrun
  rw [Discovery.doWork, hhosts]
  dsimp only
  rw [hadd]

/-- Without hosts there is no discovery. -/
theorem Discovery.doWork_of_error {file : Option csv.File} {task : DiscoveryTask} {err : PyError}
    (hhosts : task.network.getHostList task.record.networkAddress = .error err) :
    Discovery.doWork csv task.network file task.record = (file, .error .other) := by
  rw [Discovery.doWork, hhosts]

theorem DiscoveryTask.found_of_mem_rows {task : DiscoveryTask} {hostList : List String}
    (hhosts : task.network.getHostList task.record.networkAddress = .ok hostList)
    {row : DeviceRow} (hrow : row ∈ (task.run hostList).rows) : task.Found row := by
  obtain ⟨detail, hdetail, rfl⟩ := List.mem_map.mp hrow
  obtain ⟨ip, hip, hdevice⟩ := mem_discoverSnmpDevices_iff.mp hdetail
  exact ⟨hostList, hhosts, ip, hip, detail, hdevice, rfl⟩

/-- A discovery keeps the invariant of the file, and adds rows of its devices only. -/
theorem taskStep_spec {file : Option csv.File} {P : DeviceRow → Prop} (task : DiscoveryTask)
    (hfound : ∀ row, task.Found row → P row)
    (h : FileInv csv file ∧ ∀ rows, rowsOf csv file = .ok rows → ∀ row ∈ rows, P row) :
    FileInv csv (taskStep csv file task) ∧
      ∀ rows, rowsOf csv (taskStep csv file task) = .ok rows → ∀ row ∈ rows, P row := by
  obtain ⟨hfile, hall⟩ := h
  cases hhosts : task.network.getHostList task.record.networkAddress with
  | error err =>
    rw [taskStep, Discovery.doWork_of_error hhosts]
    exact ⟨hfile, hall⟩
  | ok hostList =>
    rw [taskStep, Discovery.doWork_eq hfile task hhosts]
    refine ⟨fileInv_storeStep hfile _, fun rows' hrows' row hrow => ?_⟩
    obtain ⟨rows, hrows, -, hnormalized⟩ := hfile
    dsimp only at hrows'
    rw [storeStep, addDevicesDetailToCsv_eq hrows hnormalized] at hrows'
    obtain rfl : (task.run hostList).apply rows = rows' :=
      Except.ok.inj ((csv.readRows_writeRows _).symm.trans hrows')
    rcases (task.run hostList).mem_or_mem_of_apply hrow with hold | hnew
    · exact hall rows hrows row hold
    · exact hfound row (task.found_of_mem_rows hhosts hnew)

/-- What a discovery owes, given the file and its rows: nothing without hosts, and otherwise its
devices and the run of the store. -/
structure TaskHandled (csv : CsvModule) (task : DiscoveryTask) (file : Option csv.File)
    (rows : List DeviceRow) : Prop where
  failed : ∀ err, task.network.getHostList task.record.networkAddress = .error err →
    Discovery.doWork csv task.network file task.record = (file, .error .other)
  stored : ∀ hostList, task.network.getHostList task.record.networkAddress = .ok hostList →
    ∃ rows', rowsOf csv (taskStep csv file task) = .ok rows' ∧ rows'.Nodup ∧
      RunStored (task.run hostList) rows rows' ∧
      (Discovery.doWork csv task.network file task.record).2 =
        .ok (discoverSnmpDevices task.network task.record hostList)

theorem taskHandled_of_fileInv {file : Option csv.File} {rows : List DeviceRow}
    (hrows : rowsOf csv file = .ok rows) (hnodup : rows.Nodup) (hnormalized : Normalized rows)
    (task : DiscoveryTask) : TaskHandled csv task file rows := by
  refine ⟨fun err hhosts => Discovery.doWork_of_error hhosts, fun hostList hhosts => ?_⟩
  have hrun := Discovery.doWork_eq ⟨rows, hrows, hnodup, hnormalized⟩ task hhosts
  refine ⟨(task.run hostList).apply rows, ?_, (task.run hostList).nodup_apply hnodup,
    runStored_apply _ rows, ?_⟩
  · rw [taskStep, hrun, storeStep, addDevicesDetailToCsv_eq hrows hnormalized]
    exact csv.readRows_writeRows _
  · rw [hrun]

/-- **After every history of discoveries no row is there twice, every row is that of a device
which answered one of them, and the next one stores its own devices.** -/
theorem discoveries_stored (csv : CsvModule) (history : List DiscoveryTask) :
    ∃ rows, rowsOf csv (Run.final (taskStep csv) none history) = .ok rows ∧ rows.Nodup ∧
      (∀ row ∈ rows, ∃ task ∈ history, task.Found row) ∧
      ∀ task, TaskHandled csv task (Run.final (taskStep csv) none history) rows := by
  have hinv : FileInv csv (Run.final (taskStep csv) none history) ∧ ∀ rows,
      rowsOf csv (Run.final (taskStep csv) none history) = .ok rows →
        ∀ row ∈ rows, ∃ task ∈ history, task.Found row := by
    refine Run.final_of_steps (I := fun file => FileInv csv file ∧ ∀ rows,
      rowsOf csv file = .ok rows → ∀ row ∈ rows, ∃ task ∈ history, task.Found row) ?_ ?_
    · refine ⟨fileInv_none, fun rows hrows row hrow => ?_⟩
      cases hrows
      cases hrow
    · exact fun task htask _ h => taskStep_spec task (fun row hrow => ⟨task, htask, hrow⟩) h
  obtain ⟨⟨rows, hrows, hnodup, hnormalized⟩, hfound⟩ := hinv
  exact ⟨rows, hrows, hnodup, hfound rows hrows,
    taskHandled_of_fileInv hrows hnodup hnormalized⟩

/-! ### Ports -/

/-- The text of a port is one the inventory takes. -/
theorem portValidator_toString {port : ℤ} (hlow : 1 ≤ port) (hhigh : port ≤ 65535) :
    InventoryRecord.portValidator (.str (stripText (toString port))) = .ok port := by
  obtain ⟨n, rfl⟩ := Int.eq_ofNat_of_zero_le (by omega : 0 ≤ port)
  have hstrip : stripText (toString (n : ℤ)) = toString (n : ℤ) := by
    have hlist : (toString (n : ℤ)).toList = Nat.toDigits 10 n := Nat.toList_repr
    rw [stripText, hlist, Text.strip_of_not_space, ← hlist, String.ofList_toList]
    intro c hc
    exact Text.isSpace_of_isDigit (Nat.isDigit_of_mem_toDigits (by decide) (by decide) hc)
  rw [hstrip]
  refine InventoryRecord.portValidator_of_range ?_ hlow hhigh
  rw [PyVal.toInt, Text.parseInt_toString_of_le (by omega)]

/-- Settings whose port is none or one to send to make a record with such a port. -/
theorem exists_port_of_ofKeywords {env : DiscoveryEnv} {config : DiscoveryConfig}
    (hrecord : DiscoveryRecord.ofKeywords env config = .ok record)
    (hport : ∀ value i, config.scalars.get? "port" = some value → intValue? value = some i →
      1 ≤ i ∧ i ≤ 65535) :
    ∃ port, record.port = some port ∧ 1 ≤ port ∧ port ≤ 65535 := by
  have hfield := DiscoveryRecord.ofKeywords_port hrecord
  cases hget : config.scalars.get? "port" with
  | none =>
    rw [DiscoveryRecord.portField, DiscoveryRecord.fieldOf, hget] at hfield
    exact ⟨161, (Validation.FieldOutcome.value.inj hfield).symm, by decide, by decide⟩
  | some value =>
    rw [DiscoveryRecord.portField_of_get? hget] at hfield
    rcases DiscoveryRecord.portOutcome_cases value with heq | ⟨-, heq⟩ | ⟨i, hi, heq⟩
    · rw [heq] at hfield
      cases hfield
    · rw [heq] at hfield
      exact ⟨161, (Validation.FieldOutcome.value.inj hfield).symm, by decide, by decide⟩
    · rw [heq] at hfield
      exact ⟨i, (Validation.FieldOutcome.value.inj hfield).symm, hport value i hget hi⟩

/-- **The inventory takes the port of every row**, if the records of the discoveries have ports
that can be sent to. -/
theorem discovered_port_accepted (csv : CsvModule) {history : List DiscoveryTask}
    (h : ∀ task ∈ history, ∃ port, task.record.port = some port ∧ 1 ≤ port ∧ port ≤ 65535)
    {rows : List DeviceRow}
    (hrows : rowsOf csv (Run.final (taskStep csv) none history) = .ok rows) :
    ∀ row ∈ rows, ∃ port, InventoryRecord.portValidator (.str row.port) = .ok port ∧
      ∃ task ∈ history, task.record.port = some port := by
  obtain ⟨rows', hrows', -, hfound, -⟩ := discoveries_stored csv history
  obtain rfl : rows' = rows := Except.ok.inj (hrows'.symm.trans hrows)
  intro row hrow
  obtain ⟨task, htask, -, -, ip, -, -, ⟨answer, group, -, -, -, -, rfl⟩, rfl⟩ := hfound row hrow
  obtain ⟨port, hport, hlow, hhigh⟩ := h task htask
  refine ⟨port, ?_, task, htask, hport⟩
  have hrowPort : (normalizeRow (deviceDetail task.network task.record ip group)).port =
      stripText (toString port) := by
    rw [normalizeRow, deviceDetail, hport]
    rfl
  rw [hrowPort]
  exact portValidator_toString hlow hhigh

end Sc4snmp
