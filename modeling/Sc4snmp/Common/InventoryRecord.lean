import Sc4snmp.Lib.Dict
import Sc4snmp.Lib.PyVal

/-!
# Inventory records

`common/inventory_record.py`: a line of the inventory becomes a record when every
column passes its validator.  A validator runs on a column that is there, even on
an empty one; a column that is missing takes the default of its field.  How a line
is turned down does not matter to its caller, only that it is: whether the
validator's complaint is collected or another exception gets through, an exception
leaves the constructor.

Whether an address is an IP or resolves is the network's to say, and a parameter.

## Main definitions

* `SourceRecord`, `InventoryRecord` — a line and a record.
* `AddressLookup` — `ip_address` and `socket.getaddrinfo`.
* `InventoryRecord.ofSource` — `InventoryRecord(**line)`.
-/

namespace Sc4snmp

/-- A line of the inventory: its columns, and the surplus values the CSV reader
collects under the key `None`. -/
structure SourceRecord where
  columns : Dict String PyVal
  restKey : Option (List String) := none
  deriving DecidableEq

namespace SourceRecord

/-- `line.get(key)`. -/
def get (line : SourceRecord) (key : String) : PyVal := line.columns.getD key .none

/-- `line[key]`. -/
def getItem (line : SourceRecord) (key : String) : Except PyError PyVal :=
  match line.columns.get? key with
  | some v => .ok v
  | none => .error .keyError

theorem getItem_eq_ok_iff {line : SourceRecord} {key : String} {v : PyVal} :
    line.getItem key = .ok v ↔ line.columns.get? key = some v := by
  rw [getItem]
  split <;> simp_all

/-- `line[key] = value`. -/
def set (line : SourceRecord) (key : String) (v : PyVal) : SourceRecord :=
  { line with columns := line.columns.insert key v }

end SourceRecord

/-- A record of the inventory. -/
structure InventoryRecord where
  port : ℤ
  address : Option String
  version : Option String
  community : Option String
  secret : Option String
  securityEngine : Option String
  walkInterval : ℤ
  maxOidToProcess : Option ℤ
  profiles : List String
  smartProfiles : Option Bool
  delete : Option Bool
  group : Option String
  deriving DecidableEq, Repr

/-- What the network says of an address. -/
structure AddressLookup where
  /-- `ip_address` accepts the text. -/
  isIpAddress : String → Bool
  /-- `socket.getaddrinfo` resolves the name with a port. -/
  resolves : String → ℤ → Bool

/-- `human_bool`, with its default `False`. -/
def humanBool : PyVal → Except PyError Bool
  | .none => .ok false
  | .bool b => .ok b
  | .int _ => .error .attributeError
  | .str s => .ok (Text.lower s ∈ ["true", "1", "t", "y", "yes"])

namespace InventoryRecord

/-! ### Validators -/

/-- `port_validator`. -/
def portValidator (v : PyVal) : Except PyError ℤ :=
  if v.isBlank then .ok 161
  else do
    let value ← v.toInt
    if value < 1 ∨ 65535 < value then .error .valueError else .ok value

/-- `address_validator`. -/
def addressValidator (lookup : AddressLookup) (port : ℤ) : PyVal → Except PyError String
  | .none => .error .valueError
  | .str value =>
    if Text.startsWith value "#" then .error .valueError
    else if lookup.isIpAddress value || lookup.resolves value port then .ok value
    else .error .valueError
  | _ => .error .attributeError

/-- `version_validator`. -/
def versionValidator : PyVal → Except PyError String
  | .none => .ok "2c"
  | .str value =>
    if Text.isBlank value then .ok "2c"
    else if value ∈ ["1", "2c", "3"] then .ok value
    else .error .valueError
  | _ => .error .attributeError

/-- `community_secret_security_engine_validator`. -/
def textValidator (v : PyVal) : Option String := if v.isBlank then none else some v.format

/-- `walk_interval_validator`. -/
def walkIntervalValidator (v : PyVal) : Except PyError ℤ :=
  if !v.truthy then .ok 42000
  else do
    let v ← v.toInt
    .ok (if v < 1800 then 1800 else if 604800 < v then 604800 else v)

/-- `max_oid_to_process_validator`. -/
def maxOidToProcessValidator (v : PyVal) : Except PyError (Option ℤ) :=
  if v.isBlank then .ok none
  else do
    let v ← v.toInt
    .ok (if v < 1 then none else some v)

/-- `profiles_validator`, and the check that what it lets through is a list. -/
def profilesValidator (v : PyVal) : Except PyError (List String) :=
  if v.isBlank then .ok []
  else match v with
    | .str value => .ok (Text.splitOn ';' value)
    | _ => .error .typeError

/-- `smart_profiles_validator`. -/
def smartProfilesValidator (v : PyVal) : Except PyError Bool :=
  if v.isBlank then .ok true else humanBool v

/-- `delete_validator`. -/
def deleteValidator (v : PyVal) : Except PyError Bool :=
  if v.isBlank then .ok false else humanBool v

/-- `group_validator`.  The `False` it returns for an empty group is turned into
text by the type of the field. -/
def groupValidator (v : PyVal) : String := if v.isBlank then "False" else v.format

/-! ### The constructor -/

/-- `ALTERNATIVE_FIELDS`: a column under its old name stands for the current one. -/
def renameAlternatives (line : SourceRecord) : SourceRecord :=
  [("securityEngine", "security_engine"), ("SmartProfiles", "smart_profiles")].foldl
    (fun line names => match line.columns.get? names.1 with
      | some v => { line with columns := (line.columns.insert names.2 v).erase names.1 }
      | none => line) line

/-- A column through its validator, or the default of its field. -/
def validated {α : Type} (line : SourceRecord) (key : String) (default : α)
    (validator : PyVal → Except PyError α) : Except PyError α :=
  match line.columns.get? key with
  | some v => validator v
  | none => .ok default

/-- `InventoryRecord(**line)`.  Neither the surplus values of a line nor a column
called `self` can be passed as keyword arguments. -/
def ofSource (lookup : AddressLookup) (source : SourceRecord) : Except PyError InventoryRecord :=
  if source.restKey.isSome ∨ "self" ∈ source.columns then .error .typeError
  else do
    let line := renameAlternatives source
    let port ← validated line "port" 161 portValidator
    let address ← validated line "address" none fun v => some <$> addressValidator lookup port v
    let version ← validated line "version" none fun v => some <$> versionValidator v
    let community ← validated line "community" none fun v => .ok (textValidator v)
    let secret ← validated line "secret" none fun v => .ok (textValidator v)
    let securityEngine ← validated line "security_engine" (some "") fun v => .ok (textValidator v)
    let walkInterval ← validated line "walk_interval" 42000 walkIntervalValidator
    let maxOidToProcess ← validated line "max_oid_to_process" none maxOidToProcessValidator
    let profiles ← (line.getItem "profiles").bind profilesValidator
    let smartProfiles ← validated line "smart_profiles" none
      fun v => some <$> smartProfilesValidator v
    let delete ← validated line "delete" none fun v => some <$> deleteValidator v
    let group ← validated line "group" none fun v => .ok (some (groupValidator v))
    return { port, address, version, community, secret, securityEngine, walkInterval,
             maxOidToProcess, profiles, smartProfiles, delete, group }

/-- A record passed the validators of its port, its address and its deletion. -/
theorem ofSource_fields {lookup : AddressLookup} {source : SourceRecord} {ir : InventoryRecord}
    (h : ofSource lookup source = .ok ir) :
    validated (renameAlternatives source) "port" 161 portValidator = .ok ir.port ∧
    validated (renameAlternatives source) "address" none
      (fun v => some <$> addressValidator lookup ir.port v) = .ok ir.address ∧
    validated (renameAlternatives source) "delete" none
      (fun v => some <$> deleteValidator v) = .ok ir.delete := by
  rw [ofSource] at h
  split at h
  · cases h
  · simp only [PyError.bind_eq_ok, pure, Except.pure, Except.ok.injEq] at h
    obtain ⟨port, hport, address, haddress, _, -, _, -, _, -, _, -, _, -, _, -, _, -, _, -, delete,
      hdelete, _, -, rfl⟩ := h
    exact ⟨hport, haddress, hdelete⟩

/-- Only the columns with two names are renamed. -/
theorem get?_renameAlternatives {line : SourceRecord} {key : String}
    (h : key ∉ ["securityEngine", "security_engine", "SmartProfiles", "smart_profiles"]) :
    (renameAlternatives line).columns.get? key = line.columns.get? key := by
  simp only [List.mem_cons, List.not_mem_nil, or_false, not_or] at h
  obtain ⟨h₁, h₂, h₃, h₄⟩ := h
  have hone : ∀ (line : SourceRecord) (names : String × String), key ≠ names.1 → key ≠ names.2 →
      (match line.columns.get? names.1 with
        | some v => { line with columns := (line.columns.insert names.2 v).erase names.1 }
        | none => line).columns.get? key = line.columns.get? key := by
    intro line names hold hnew
    split
    · rw [Dict.get?_erase, if_neg hold, Dict.get?_insert, if_neg hnew]
    · rfl
  rw [renameAlternatives, List.foldl_cons, List.foldl_cons, List.foldl_nil, hone _ _ h₃ h₄,
    hone _ _ h₁ h₂]

theorem portValidator_range {v : PyVal} {port : ℤ} (h : portValidator v = .ok port) :
    1 ≤ port ∧ port ≤ 65535 := by
  rw [portValidator] at h
  split at h
  · cases h
    decide
  · obtain ⟨value, -, h⟩ := PyError.bind_eq_ok.mp h
    split at h
    · cases h
    · next hrange =>
      cases h
      omega

/-- A record has a port one can send to. -/
theorem ofSource_port_range {lookup : AddressLookup} {source : SourceRecord} {ir : InventoryRecord}
    (h : ofSource lookup source = .ok ir) : 1 ≤ ir.port ∧ ir.port ≤ 65535 := by
  have hport := (ofSource_fields h).1
  rw [validated] at hport
  split at hport
  · exact portValidator_range hport
  · rw [← Except.ok.inj hport]
    decide

end InventoryRecord

end Sc4snmp
