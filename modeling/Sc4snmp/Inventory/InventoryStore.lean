import Sc4snmp.Inventory.GroupRemoval
import Sc4snmp.Lib.Collection

/-!
# The inventory as a store

Records are stored and deleted under an address and a port, and the pollers look them up by a
target key.  The keys are built by `transform_address_to_key` and read back by
`transform_key_to_address` here and by `return_address_and_port` in the pollers, which cut the
key at its last colon: the address may have colons of its own.

## Main definitions

* `returnAddressAndPort`, `findInventory` — the lookup of `get_inventory`.
* `InventoryCall`, `InventoryCall.perform` — the calls of the manager.
* `InventoryCall.document` — what a call leaves under its address and port.
* `StoreLaw` — what holds after every sequence of calls.

## Main results

* `returnAddressAndPort_recordKey` — a key is read back as the address and the port.
* `documents_step`, `documents_final` — the collection is what the calls write to it.
* `inventory_store_law` — **the store answers with what the last call has left**.
-/

namespace Sc4snmp

open InventoryRecordManager

/-! ### The lookup -/

/-- `return_address_and_port` of `snmp/manager.py`. -/
def returnAddressAndPort (target : String) : Except PyError (String × ℤ) :=
  match Text.rsplitOnce ':' target with
  | some (address, port) => do
    let port ← (PyVal.str port).toInt
    return (address, port)
  | none => .ok (target, 161)

theorem returnAddressAndPort_eq (target : String) :
    returnAddressAndPort target = transformKeyToAddress target := by
  unfold returnAddressAndPort transformKeyToAddress
  cases Text.rsplitOnce ':' target <;> rfl

/-- The documents of the inventory collection. -/
def InventoryDb.documents (db : InventoryDb) : List InventoryRecord := db.inventory.values

/-- The `find_one` of `get_inventory`. -/
def findInventory (db : InventoryDb) (address : String) :
    Except PyError (Option InventoryRecord) := do
  let (host, port) ← returnAddressAndPort address
  return Collection.findOne InventoryRecord.docKey (some host, port) db.documents

/-- The key of an address and a port one can send to. -/
theorem transformAddressToKey_recordKey {r : String × ℤ} (h : 1 ≤ r.2 ∧ r.2 ≤ 65535) :
    transformAddressToKey (.str r.1) (.int r.2) = .ok (recordKey r) := by
  have hport : r.2 ≠ 0 := by omega
  rw [transformAddressToKey_int, if_neg hport]
  rfl

/-- It is read back, whatever the address is. -/
theorem returnAddressAndPort_recordKey {r : String × ℤ} (h : 1 ≤ r.2 ∧ r.2 ≤ 65535) :
    returnAddressAndPort (recordKey r) = .ok r := by
  rw [returnAddressAndPort_eq]
  exact transformKeyToAddress_key r.1 (by omega)

/-! ### The calls -/

/-- A record that has passed its validators. -/
structure ValidatedRecord where
  record : InventoryRecord
  address : String
  record_address : record.address = some address
  port_range : 1 ≤ record.port ∧ record.port ≤ 65535

namespace ValidatedRecord

/-- The address and the port. -/
def key (r : ValidatedRecord) : String × ℤ := (r.address, r.record.port)

theorem docKey_eq (r : ValidatedRecord) : r.record.docKey = (some r.key.1, r.key.2) := by
  rw [InventoryRecord.docKey, r.record_address]
  rfl

theorem target_eq (r : ValidatedRecord) :
    transformAddressToKey r.record.addressVal (.int r.record.port) = .ok (recordKey r.key) := by
  rw [InventoryRecord.addressVal, r.record_address]
  exact @transformAddressToKey_recordKey r.key r.port_range

end ValidatedRecord

/-- A call of the manager. -/
inductive InventoryCall
  | update (config : LoadConfig) (expiryTimeChanged : Bool) (r : ValidatedRecord)
    (source : SourceRecord)
  | delete (r : ValidatedRecord)

namespace InventoryCall

/-- The address and the port of the record. -/
def key : InventoryCall → String × ℤ
  | update _ _ r _ => r.key
  | delete r => r.key

/-- The call is an update. -/
def isUpdate : InventoryCall → Bool
  | update _ _ _ _ => true
  | delete _ => false

/-- What the call leaves: an update its record, with the walk interval of the line. -/
def document : InventoryCall → Option InventoryRecord
  | update config _ r source => (walkSettings config r.record source).toOption.map Prod.snd
  | delete _ => none

/-- What the call writes to the collection: the `update_one` with `upsert` of an update, the
`delete_one` of a delete. -/
def write (docs : List InventoryRecord) (call : InventoryCall) : List InventoryRecord :=
  match call.document with
  | some record => Collection.upsertOne InventoryRecord.docKey record docs
  | none => Collection.deleteOne InventoryRecord.docKey (some call.key.1, call.key.2) docs

/-- No call stores a second document for an address and a port. -/
theorem uniqueKeys_write {docs : List InventoryRecord}
    (h : Collection.UniqueKeys InventoryRecord.docKey docs) (call : InventoryCall) :
    Collection.UniqueKeys InventoryRecord.docKey (write docs call) := by
  unfold write
  split
  · exact h.upsertOne _
  · exact h.deleteOne _

section Perform

variable (deleteSchedules : DeleteSchedulesByTarget)

/-- What the call does; the loader deletes by the key of the record. -/
def perform (db : InventoryDb) : InventoryCall → InventoryDb × Except PyError Unit
  | update config expiryTimeChanged r source =>
    InventoryRecordManager.update config expiryTimeChanged db r.record source
  | delete r =>
    match transformAddressToKey r.record.addressVal (.int r.record.port) with
    | .ok target => InventoryRecordManager.delete deleteSchedules db target
    | .error err => (db, .error err)

/-- The database after the call. -/
def step (db : InventoryDb) (call : InventoryCall) : InventoryDb :=
  (call.perform deleteSchedules db).1

/-- The call returns normally. -/
def Returns (db : InventoryDb) (call : InventoryCall) : Prop :=
  (call.perform deleteSchedules db).2 = .ok ()

end Perform

end InventoryCall

/-! ### One call -/

section Call

variable {deleteSchedules : DeleteSchedulesByTarget} {db : InventoryDb}

/-- What a delete leaves. -/
theorem step_delete (deleteSchedules : DeleteSchedulesByTarget) (db : InventoryDb)
    (r : ValidatedRecord) :
    InventoryCall.step deleteSchedules db (.delete r) =
      { schedules := deleteSchedules db.schedules (recordKey r.key)
        inventory := db.inventory.erase (some r.key.1, r.key.2)
        targets := db.targets.filter (· ≠ recordKey r.key)
        attributes := db.attributes.filter (· ≠ recordKey r.key) } := by
  have hrange : 0 ≤ r.record.port ∧ r.record.port ≤ 65535 := by
    obtain ⟨hlow, hhigh⟩ := r.port_range
    omega
  have hread : transformKeyToAddress (recordKey r.key) = .ok r.key :=
    transformKeyToAddress_key r.address hrange
  simp only [InventoryCall.step, InventoryCall.perform, r.target_eq]
  rw [InventoryRecordManager.delete, hread]

/-- What an update that returns leaves of the inventory. -/
theorem inventory_update {config : LoadConfig} {expiryTimeChanged : Bool} {r : ValidatedRecord}
    {source : SourceRecord}
    (h : InventoryCall.Returns deleteSchedules db (.update config expiryTimeChanged r source)) :
    ∃ record, InventoryCall.document (.update config expiryTimeChanged r source) = some record ∧
      record.docKey = (some r.key.1, r.key.2) ∧
      (InventoryCall.step deleteSchedules db
        (.update config expiryTimeChanged r source)).inventory =
          db.inventory.insert record.docKey record := by
  cases hset : walkSettings config r.record source with
  | error err =>
    rw [InventoryCall.Returns, InventoryCall.perform, update, hset] at h
    cases h
  | ok settings =>
    obtain ⟨walkProfile, record⟩ := settings
    refine ⟨record, ?_, ?_, ?_⟩
    · rw [InventoryCall.document, hset]
      rfl
    · exact (walkSettings_record hset).1.trans r.docKey_eq
    · exact (update_effect expiryTimeChanged db hset).1

/-- Documents keep standing under their addresses and ports. -/
theorem keyed_step (hdb : db.inventory.Keyed InventoryRecord.docKey) {call : InventoryCall}
    (h : call.Returns deleteSchedules db) :
    (call.step deleteSchedules db).inventory.Keyed InventoryRecord.docKey := by
  cases call with
  | update config expiryTimeChanged r source =>
    obtain ⟨record, -, -, hinventory⟩ := inventory_update h
    rw [hinventory]
    exact hdb.insert record
  | delete r =>
    rw [step_delete]
    exact hdb.erase _

/-- The collection after a call is what the call has written. -/
theorem documents_step (hdb : db.inventory.Keyed InventoryRecord.docKey) {call : InventoryCall}
    (h : call.Returns deleteSchedules db) :
    (call.step deleteSchedules db).documents = InventoryCall.write db.documents call := by
  unfold InventoryDb.documents
  cases call with
  | update config expiryTimeChanged r source =>
    obtain ⟨record, hdocument, -, hinventory⟩ := inventory_update h
    rw [hinventory, InventoryCall.write, hdocument]
    exact hdb.values_insert record
  | delete r =>
    rw [step_delete]
    exact hdb.values_erase _

/-- A call leaves its document, and the others where they are. -/
theorem document_step {call : InventoryCall} (h : call.Returns deleteSchedules db)
    (r : String × ℤ) :
    (call.step deleteSchedules db).document r =
      if call.key = r then call.document else db.document r := by
  have hkeys : ∀ s : String × ℤ, (some r.1, r.2) = (some s.1, s.2) ↔ s = r := by
    intro s
    rw [Prod.mk.injEq, Option.some.injEq, Prod.ext_iff]
    exact and_congr eq_comm eq_comm
  cases call with
  | update config expiryTimeChanged s source =>
    obtain ⟨record, hdocument, hkey, hinventory⟩ := inventory_update h
    rw [InventoryDb.document, hinventory, Dict.get?_insert, hkey, hdocument]
    simp only [hkeys]
    rfl
  | delete s =>
    rw [step_delete, InventoryDb.document, Dict.get?_erase]
    simp only [hkeys]
    rfl

end Call

/-! ### Sequences of calls -/

/-- The last call for an address and a port. -/
def lastCall (r : String × ℤ) (calls : List InventoryCall) : Option InventoryCall :=
  calls.reverse.find? fun call => call.key = r

theorem lastCall_cons (r : String × ℤ) (call : InventoryCall) (calls : List InventoryCall) :
    lastCall r (call :: calls) =
      (lastCall r calls).or (if call.key = r then some call else none) := by
  unfold lastCall
  rw [List.reverse_cons, List.find?_append]
  by_cases hkey : call.key = r <;> simp [hkey]

/-- After some calls the collection is what they have written, one after the other. -/
theorem documents_final {deleteSchedules : DeleteSchedulesByTarget} {db : InventoryDb}
    (hdb : db.inventory.Keyed InventoryRecord.docKey) {calls : List InventoryCall}
    (h : Run.Along (InventoryCall.step deleteSchedules) (InventoryCall.Returns deleteSchedules) db
      calls) :
    (Run.final (InventoryCall.step deleteSchedules) db calls).documents =
      calls.foldl InventoryCall.write db.documents := by
  induction calls generalizing db with
  | nil => rfl
  | cons call calls ih =>
    obtain ⟨hcall, hrest⟩ := h
    rw [Run.final_cons, ih (keyed_step hdb hcall) hrest, documents_step hdb hcall, List.foldl_cons]

theorem uniqueKeys_written {docs : List InventoryRecord}
    (h : Collection.UniqueKeys InventoryRecord.docKey docs) (calls : List InventoryCall) :
    Collection.UniqueKeys InventoryRecord.docKey (calls.foldl InventoryCall.write docs) := by
  induction calls generalizing docs with
  | nil => exact h
  | cons call calls ih => exact ih (InventoryCall.uniqueKeys_write h call)

/-- After some calls, under an address and a port is what the last one has left. -/
theorem document_final {deleteSchedules : DeleteSchedulesByTarget} {db : InventoryDb}
    (hdb : db.inventory.Keyed InventoryRecord.docKey) {calls : List InventoryCall}
    (h : Run.Along (InventoryCall.step deleteSchedules) (InventoryCall.Returns deleteSchedules) db
      calls) :
    (Run.final (InventoryCall.step deleteSchedules) db calls).inventory.Keyed
        InventoryRecord.docKey ∧
      ∀ r, (Run.final (InventoryCall.step deleteSchedules) db calls).document r =
        ((lastCall r calls).map InventoryCall.document).getD (db.document r) := by
  induction calls generalizing db with
  | nil => exact ⟨hdb, fun _ => rfl⟩
  | cons call calls ih =>
    obtain ⟨hcall, hrest⟩ := h
    obtain ⟨hkeyed, hdocument⟩ := ih (keyed_step hdb hcall) hrest
    refine ⟨hkeyed, ?_⟩
    intro r
    rw [Run.final_cons, hdocument, document_step hcall, lastCall_cons]
    cases lastCall r calls with
    | some last => rfl
    | none => by_cases hkey : call.key = r <;> simp [hkey]

/-- What holds after every sequence of calls. -/
structure StoreLaw (deleteSchedules : DeleteSchedulesByTarget) (db : InventoryDb)
    (calls : List InventoryCall) : Prop where
  /-- The collection holds what the calls have written to it, -/
  written : db.documents = calls.foldl InventoryCall.write []
  /-- which is at most one document for each address and port. -/
  unique : Collection.UniqueKeys InventoryRecord.docKey db.documents
  /-- The lookup by a key finds what the last call has left, -/
  found : ∀ r : String × ℤ, 1 ≤ r.2 ∧ r.2 ≤ 65535 →
    ∃ key, transformAddressToKey (.str r.1) (.int r.2) = .ok key ∧
      findInventory db key = .ok ((lastCall r calls).bind InventoryCall.document)
  /-- which is a document after an update and nothing after a delete. -/
  left : ∀ r call, lastCall r calls = some call → (call.document.isSome ↔ call.isUpdate)
  /-- A delete removes nothing of other records. -/
  deleted : ∀ (s : ValidatedRecord) (r : String × ℤ), r ≠ s.key →
    let db' := InventoryCall.step deleteSchedules db (.delete s)
    db'.document r = db.document r ∧
      db'.targets.filter (· = recordKey r) = db.targets.filter (· = recordKey r) ∧
      db'.attributes.filter (· = recordKey r) = db.attributes.filter (· = recordKey r)

theorem filter_filter_of_ne {a b : String} (h : b ≠ a) (l : List String) :
    (l.filter (· ≠ a)).filter (· = b) = l.filter (· = b) := by
  rw [List.filter_filter]
  refine List.filter_congr ?_
  intro x _
  by_cases hx : x = b
  · simp [hx, h]
  · simp [hx]

/-- Every call of a run whose calls return leaves a document exactly if it is an update. -/
theorem isSome_document {deleteSchedules : DeleteSchedulesByTarget} {db : InventoryDb}
    {calls : List InventoryCall}
    (h : Run.Along (InventoryCall.step deleteSchedules) (InventoryCall.Returns deleteSchedules) db
      calls) : ∀ call ∈ calls, (call.document.isSome ↔ call.isUpdate) := by
  induction calls generalizing db with
  | nil => simp
  | cons call calls ih =>
    obtain ⟨hcall, hrest⟩ := h
    refine List.forall_mem_cons.mpr ⟨?_, ih hrest⟩
    cases call with
    | update config expiryTimeChanged r source =>
      obtain ⟨record, hdocument, -, -⟩ := inventory_update hcall
      rw [hdocument]
      exact iff_of_true rfl rfl
    | delete r => exact iff_of_false Bool.false_ne_true Bool.false_ne_true

/-- **The store answers with what the last call has left**, after every sequence of calls that
return, whatever else the database holds when the inventory is empty. -/
theorem inventory_store_law (deleteSchedules : DeleteSchedulesByTarget) (schedules : ScheduleStore)
    (targets attributes : List String) (calls : List InventoryCall)
    (h : Run.Along (InventoryCall.step deleteSchedules) (InventoryCall.Returns deleteSchedules)
      ⟨schedules, Dict.empty, targets, attributes⟩ calls) :
    StoreLaw deleteSchedules (Run.final (InventoryCall.step deleteSchedules)
      ⟨schedules, Dict.empty, targets, attributes⟩ calls) calls := by
  obtain ⟨hkeyed, hdocument⟩ := document_final Dict.Keyed.empty h
  have hwritten := documents_final Dict.Keyed.empty h
  refine ⟨hwritten, hwritten ▸ uniqueKeys_written Collection.uniqueKeys_nil calls, ?_, ?_, ?_⟩
  · intro r hr
    refine ⟨recordKey r, transformAddressToKey_recordKey hr, ?_⟩
    rw [findInventory, returnAddressAndPort_recordKey hr]
    show Except.ok _ = _
    rw [InventoryDb.documents, ← hkeyed.get?_eq]
    have hlast := hdocument r
    rw [InventoryDb.document] at hlast
    rw [hlast]
    cases lastCall r calls <;> rfl
  · intro r call hlast
    have hmem : call ∈ calls := List.mem_reverse.mp (List.mem_of_find?_eq_some hlast)
    exact isSome_document h call hmem
  · intro s r hne
    have hkey : recordKey r ≠ recordKey s.key := fun heq => hne (recordKey_injective heq)
    have hdoc : (some r.1, r.2) ≠ (some s.key.1, s.key.2) := by
      intro heq
      obtain ⟨haddress, hport⟩ := Prod.mk.inj heq
      exact hne (Prod.ext (Option.some.inj haddress) hport)
    rw [step_delete]
    refine ⟨?_, filter_filter_of_ne hkey _, filter_filter_of_ne hkey _⟩
    rw [InventoryDb.document, Dict.get?_erase, if_neg hdoc]
    rfl

/-! ### A record that is stored and deleted -/

/-- A host with an IPv6 address. -/
def linkLocalHost : ValidatedRecord where
  record := { bigWalkHost with address := some "fe80::1", port := 1161 }
  address := "fe80::1"
  record_address := rfl
  port_range := by decide

/-- The host is stored, and the one on the default port is stored and deleted. -/
def linkLocalCalls : List InventoryCall :=
  let other : ValidatedRecord :=
    { linkLocalHost with
      record := { linkLocalHost.record with port := 161 }, port_range := by decide }
  [.update (bigWalkConfig true) false linkLocalHost bigWalkLine,
    .update (bigWalkConfig true) false other bigWalkLine, .delete other]

theorem inventory_store_law_linkLocal :
    StoreLaw keepSchedules (Run.final (InventoryCall.step keepSchedules)
      ⟨ScheduleStore.empty, Dict.empty, [], []⟩ linkLocalCalls) linkLocalCalls :=
  inventory_store_law keepSchedules ScheduleStore.empty [] [] linkLocalCalls
    ⟨rfl, rfl, rfl, trivial⟩

end Sc4snmp
