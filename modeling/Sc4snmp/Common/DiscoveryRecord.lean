import Sc4snmp.Common.InventoryRecord
import Sc4snmp.Lib.Json
import Sc4snmp.Lib.Validation

/-!
# Discovery records

`common/discovery_record.py`: the settings of a discovery become a record when every one of
them passes its validator and has the type of its field.  A setting that is missing takes the
default of its field.  pydantic collects the `ValueError` and `TypeError` of validators in a
`ValidationError`; any other exception gets through.

The check of the port lets every integer pass, as a number is above zero or below 65536.

What `ip_network` accepts, and what `dict` makes of a rule that is no mapping, are parameters.

## Main definitions

* `DiscoveryConfig`, `DiscoveryRecord` — the settings and the record.
* `DiscoveryRecord.ofKeywords` — `DiscoveryRecord(**settings)`.
* `PortAgrees` — a port is checked as it should be, and as the inventory checks it.

## Main results

* `ofKeywords_eq_ok_iff` — a record is built exactly if its fields have values.
* `ofKeywords_port`, `ofKeywords_invalid_port` — what the field of the port means for the record.
* `portAgrees_iff` — **when a port is checked as it should be**.
-/

namespace Sc4snmp

open Validation

/-- The settings of a discovery: scalars, and the rules for its devices. -/
structure DiscoveryConfig where
  scalars : Dict String PyVal
  deviceRules : Option Json

/-- A record of a discovery. -/
structure DiscoveryRecord where
  discoveryName : Option String
  networkAddress : Option String
  address : Option String
  port : Option ℤ
  version : Option String
  community : Option String
  secret : Option String
  securityEngine : Option String
  frequency : Option ℤ
  deleteAlreadyDiscovered : Option Bool
  deviceRules : Option (List Json)

/-- What the record depends on. -/
structure DiscoveryEnv where
  /-- `ip_network` with `strict=False` accepts the value. -/
  isNetwork : PyVal → Bool
  /-- What `dict` makes of a value that is no mapping. -/
  dictOf : Json → Option Json

/-- The value of an integer; a truth value is one. -/
def intValue? : PyVal → Option ℤ
  | .int i => some i
  | .bool b => some (if b then 1 else 0)
  | _ => none

/-- The record with another port. -/
def DiscoveryRecord.withPort (record : DiscoveryRecord) (port : Option ℤ) : DiscoveryRecord :=
  { record with port }

/-- The settings without a port. -/
def DiscoveryConfig.withoutPort (config : DiscoveryConfig) : DiscoveryConfig :=
  { config with scalars := config.scalars.erase "port" }

namespace DiscoveryRecord

/-! ### Types of fields -/

/-- A field of type `DiscoveryStr`. -/
def asStr : PyVal → Except PyError (Option String)
  | .none => .ok none
  | v => .ok (some v.format)

/-- A field of type `DiscoveryInt`. -/
def asInt : PyVal → Except PyError (Option ℤ)
  | .none => .ok none
  | v => some <$> v.toInt

/-- A field of type `DiscoveryList`. -/
def asRules (env : DiscoveryEnv) : Json → Except PyError (Option (List Json))
  | .arr rules => match rules.mapM fun rule => match rule with
      | .obj members => some (.obj members)
      | rule => env.dictOf rule with
    | some rules => .ok (some rules)
    | none => .error .valueError
  | .null => .ok none
  | _ => .error .typeError

/-! ### Validators -/

/-- `network_address_validator`. -/
def networkAddressValidator (env : DiscoveryEnv) : PyVal → Except PyError PyVal
  | .none => .error .valueError
  | value => if env.isNetwork value then .ok value else .error .valueError

/-- `port_validator`: a text is compared with a number when it is no integer. -/
def portValidator : PyVal → Except PyError PyVal
  | .none => .ok (.int 161)
  | value => match intValue? value with
    | some i => if 1 ≤ i ∨ i ≤ 65535 then .ok value else .error .valueError
    | none => .error .typeError

/-- `version_validator`. -/
def versionValidator (value : PyVal) : Except PyError PyVal :=
  .str <$> InventoryRecord.versionValidator value

/-- `community_secret_security_engine_validator`. -/
def textValidator (value : PyVal) : PyVal := if value.isBlank then .none else value

/-- `frequency_validator`. -/
def frequencyValidator : PyVal → Except PyError PyVal
  | .none => .ok (.int 86400)
  | value => match intValue? value with
    | some i => .ok (if i < 21600 then .int 21600 else value)
    | none => .error .typeError

/-- `delete_already_discovered_validator`. -/
def deleteAlreadyDiscoveredValidator : PyVal → Except PyError Bool
  | .none => .ok false
  | value => humanBool value

/-- `device_rules_validator`. -/
def deviceRulesValidator : Json → Json
  | .arr [] => .null
  | value => value

/-! ### The constructor -/

/-- What pydantic makes of what a validator returns or raises. -/
def outcomeOf {α : Type} : Except PyError α → FieldOutcome PyError α
  | .ok a => .value a
  | .error .valueError => .invalid
  | .error .typeError => .invalid
  | .error err => .raised err

/-- A field: its default, or its setting through the validator and the type. -/
def fieldOf {α : Type} (config : DiscoveryConfig) (key : String) (default : α)
    (validator : PyVal → Except PyError α) : FieldOutcome PyError α :=
  match config.scalars.get? key with
  | some value => outcomeOf (validator value)
  | none => .value default

/-- The field of the port. -/
def portField (config : DiscoveryConfig) : FieldOutcome PyError (Option ℤ) :=
  fieldOf config "port" (some 161) fun value => portValidator value >>= asInt

/-- The fields of a record, in their order, with any outcome for the port. -/
def draft (env : DiscoveryEnv) (config : DiscoveryConfig) (port : FieldOutcome PyError (Option ℤ)) :
    Draft PyError DiscoveryRecord :=
  (Draft.building DiscoveryRecord.mk)
    |>.field "discovery_name" (fieldOf config "discovery_name" none asStr)
    |>.field "network_address" (fieldOf config "network_address" none
        fun value => networkAddressValidator env value >>= asStr)
    |>.field "address" (fieldOf config "address" none asStr)
    |>.field "port" port
    |>.field "version" (fieldOf config "version" none
        fun value => versionValidator value >>= asStr)
    |>.field "community" (fieldOf config "community" none fun value => asStr (textValidator value))
    |>.field "secret" (fieldOf config "secret" none fun value => asStr (textValidator value))
    |>.field "security_engine" (fieldOf config "security_engine" (some "")
        fun value => asStr (textValidator value))
    |>.field "frequency" (fieldOf config "frequency" none
        fun value => frequencyValidator value >>= asInt)
    |>.field "delete_already_discovered" (fieldOf config "delete_already_discovered" none
        fun value => some <$> deleteAlreadyDiscoveredValidator value)
    |>.field "device_rules" (match config.deviceRules with
        | some value => outcomeOf (asRules env (deviceRulesValidator value))
        | none => .value none)

/-- `DiscoveryRecord(**settings)`. -/
def ofKeywords (env : DiscoveryEnv) (config : DiscoveryConfig) :
    Except (Failure PyError) DiscoveryRecord :=
  (draft env config (portField config)).finish

variable {env : DiscoveryEnv} {config : DiscoveryConfig} {record : DiscoveryRecord}

/-! ### The fields -/

/-- The field of the rules. -/
def rulesField (env : DiscoveryEnv) (config : DiscoveryConfig) :
    FieldOutcome PyError (Option (List Json)) :=
  config.deviceRules.elim (.value none) fun value =>
    outcomeOf (asRules env (deviceRulesValidator value))

/-- **A record is built exactly if every field has the value it has in the record.** -/
theorem ofKeywords_eq_ok_iff : ofKeywords env config = .ok record ↔
    fieldOf config "discovery_name" none asStr = .value record.discoveryName ∧
    fieldOf config "network_address" none
      (fun value => networkAddressValidator env value >>= asStr) = .value record.networkAddress ∧
    fieldOf config "address" none asStr = .value record.address ∧
    portField config = .value record.port ∧
    fieldOf config "version" none
      (fun value => versionValidator value >>= asStr) = .value record.version ∧
    fieldOf config "community" none (fun value => asStr (textValidator value)) =
      .value record.community ∧
    fieldOf config "secret" none (fun value => asStr (textValidator value)) =
      .value record.secret ∧
    fieldOf config "security_engine" (some "") (fun value => asStr (textValidator value)) =
      .value record.securityEngine ∧
    fieldOf config "frequency" none (fun value => frequencyValidator value >>= asInt) =
      .value record.frequency ∧
    fieldOf config "delete_already_discovered" none
      (fun value => some <$> deleteAlreadyDiscoveredValidator value) =
      .value record.deleteAlreadyDiscovered ∧
    rulesField env config = .value record.deviceRules := by
  rw [ofKeywords, Draft.finish_eq_ok_iff, rulesField]
  constructor
  · intro h
    unfold draft at h
    simp only [Draft.field_eq_building_iff] at h
    obtain ⟨_, rules, ⟨_, delete, ⟨_, frequency, ⟨_, engine, ⟨_, secret, ⟨_, community,
      ⟨_, version, ⟨_, port', ⟨_, address, ⟨_, network, ⟨_, name, hmake, hname, rfl⟩, hnetwork,
      rfl⟩, haddress, rfl⟩, hport, rfl⟩, hversion, rfl⟩, hcommunity, rfl⟩, hsecret, rfl⟩,
      hengine, rfl⟩, hfrequency, rfl⟩, hdelete, rfl⟩, hrules, rfl⟩ := h
    cases hmake
    refine ⟨hname, hnetwork, haddress, hport, hversion, hcommunity, hsecret, hengine, hfrequency,
      hdelete, ?_⟩
    cases hconfig : config.deviceRules with
    | none => rw [hconfig] at hrules; exact hrules
    | some value => rw [hconfig] at hrules; exact hrules
  · rintro ⟨hname, hnetwork, haddress, hport, hversion, hcommunity, hsecret, hengine, hfrequency,
      hdelete, hrules⟩
    unfold draft
    rw [hname, hnetwork, haddress, hport, hversion, hcommunity, hsecret, hengine, hfrequency,
      hdelete]
    cases hconfig : config.deviceRules with
    | none =>
      rw [hconfig] at hrules
      simp only [Draft.field_value, FieldOutcome.value.inj hrules]
    | some value =>
      rw [hconfig, Option.elim_some] at hrules
      simp only [hrules, Draft.field_value]

/-! ### The field of the port -/

theorem fieldOf_withoutPort {α : Type} {key : String} (h : key ≠ "port") (default : α)
    (validator : PyVal → Except PyError α) :
    fieldOf config.withoutPort key default validator = fieldOf config key default validator := by
  rw [fieldOf, DiscoveryConfig.withoutPort, Dict.get?_erase, if_neg h]
  rfl

/-- The other fields do not depend on the port. -/
theorem draft_withoutPort (port : FieldOutcome PyError (Option ℤ)) :
    draft env config.withoutPort port = draft env config port := by
  unfold draft
  iterate 9 rw [fieldOf_withoutPort (by decide)]
  rfl

/-- When the other fields have values the record depends on the port alone. -/
theorem draft_of_building {port : FieldOutcome PyError (Option ℤ)}
    (h : draft env config port = .building record) :
    port = .value record.port ∧
      (∀ p, draft env config (.value p) = .building (record.withPort p)) ∧
      draft env config .invalid = .complaining ["port"] := by
  unfold draft at h
  simp only [Draft.field_eq_building_iff] at h
  obtain ⟨_, rules, ⟨_, delete, ⟨_, frequency, ⟨_, engine, ⟨_, secret, ⟨_, community,
    ⟨_, version, ⟨_, port', ⟨_, address, ⟨_, network, ⟨_, name, hmake, hname, rfl⟩, hnetwork, rfl⟩,
    haddress, rfl⟩, hport, rfl⟩, hversion, rfl⟩, hcommunity, rfl⟩, hsecret, rfl⟩, hengine, rfl⟩,
    hfrequency, rfl⟩, hdelete, rfl⟩, hrules, rfl⟩ := h
  cases hmake
  refine ⟨hport, fun p => ?_, ?_⟩
  · unfold draft
    rw [hname, hnetwork, haddress, hversion, hcommunity, hsecret, hengine, hfrequency, hdelete,
      hrules]
    simp only [Draft.field_value, DiscoveryRecord.withPort]
  · unfold draft
    rw [hname, hnetwork, haddress, hversion, hcommunity, hsecret, hengine, hfrequency, hdelete,
      hrules]
    simp only [Draft.field_value, Draft.field_invalid, Draft.complaining_field_value]

/-- A record has the port of its field. -/
theorem ofKeywords_port (h : ofKeywords env config = .ok record) :
    portField config = .value record.port :=
  (draft_of_building (Draft.finish_eq_ok_iff.mp h)).1

/-- With settings that are valid otherwise the port decides. -/
theorem ofKeywords_of_withoutPort (h : ofKeywords env config.withoutPort = .ok record) :
    (∀ p, portField config = .value p →
      ofKeywords env config = .ok (record.withPort p)) ∧
    (portField config = .invalid → ofKeywords env config = .error (.invalid ["port"])) := by
  have hdraft := Draft.finish_eq_ok_iff.mp h
  rw [draft_withoutPort] at hdraft
  obtain ⟨_, hvalue, hinvalid⟩ := draft_of_building hdraft
  constructor
  · intro p hp
    rw [ofKeywords, hp, hvalue p]
    rfl
  · intro hport
    rw [ofKeywords, hport, hinvalid]
    rfl

/-- What becomes of a value that is given as the port. -/
def portOutcome : PyVal → FieldOutcome PyError (Option ℤ)
  | .none => .value (some 161)
  | .str _ => .invalid
  | .int i => .value (some i)
  | .bool b => .value (some (if b then 1 else 0))

theorem portOutcome_of_intValue? {value : PyVal} {i : ℤ} (h : intValue? value = some i) :
    portOutcome value = .value (some i) := by
  cases value with
  | none => cases h
  | str s => cases h
  | int j => exact congrArg FieldOutcome.value h
  | bool b => exact congrArg FieldOutcome.value h

/-- A port is refused, or is the default, or is the integer that is given. -/
theorem portOutcome_cases (value : PyVal) :
    portOutcome value = .invalid ∨
      (value = .none ∧ portOutcome value = .value (some 161)) ∨
      ∃ i, intValue? value = some i ∧ portOutcome value = .value (some i) := by
  cases value with
  | none => exact Or.inr (Or.inl ⟨rfl, rfl⟩)
  | str s => exact Or.inl rfl
  | int i => exact Or.inr (Or.inr ⟨i, rfl, rfl⟩)
  | bool b => exact Or.inr (Or.inr ⟨_, rfl, rfl⟩)

theorem portField_of_get? {value : PyVal} (h : config.scalars.get? "port" = some value) :
    portField config = portOutcome value := by
  have hpass : ∀ i : ℤ, 1 ≤ i ∨ i ≤ 65535 := fun i => by omega
  rw [portField, fieldOf, h]
  cases value with
  | none => rfl
  | str s => rfl
  | int i =>
    have hok : portValidator (.int i) = .ok (.int i) := if_pos (hpass i)
    dsimp only
    rw [hok]
    rfl
  | bool b =>
    have hok : portValidator (.bool b) = .ok (.bool b) := if_pos (hpass _)
    dsimp only
    rw [hok]
    rfl

end DiscoveryRecord

/-! ### Ports -/

/-- A value is checked as it should be when it is given as a port: a record has the port it
denotes, one that can be sent to, and the inventory takes it as well; otherwise the port is
reported as invalid. -/
structure PortAgrees (env : DiscoveryEnv) (value : PyVal) : Prop where
  accepted : ∀ config record, config.scalars.get? "port" = some value →
    DiscoveryRecord.ofKeywords env config = .ok record →
      ∃ port, record.port = some port ∧
        (value = .none ∧ port = 161 ∨ value.toInt = .ok port ∧ 1 ≤ port ∧ port ≤ 65535) ∧
        InventoryRecord.portValidator value = .ok port ∧
        InventoryRecord.portValidator (.int port) = .ok port
  rejected : ∀ config err, config.scalars.get? "port" = some value →
    DiscoveryRecord.ofKeywords env config = .error err →
      (∃ record, DiscoveryRecord.ofKeywords env config.withoutPort = .ok record) →
        err = .invalid ["port"]

/-- Settings of which only the port is there. -/
def portOnly (value : PyVal) : DiscoveryConfig := ⟨Dict.empty.insert "port" value, none⟩

/-- A record of nothing but a port. -/
def portRecord (port : Option ℤ) : DiscoveryRecord :=
  ⟨none, none, none, port, none, none, none, some "", none, none, none⟩

theorem ofKeywords_portOnly (env : DiscoveryEnv) (value : PyVal) {port : Option ℤ}
    (h : DiscoveryRecord.portField (portOnly value) = .value port) :
    DiscoveryRecord.ofKeywords env (portOnly value) = .ok (portRecord port) := by
  rw [DiscoveryRecord.ofKeywords, h]
  rfl

/-- The inventory takes a port from 1 to 65535. -/
theorem InventoryRecord.portValidator_of_range {value : PyVal} {port : ℤ}
    (hport : value.toInt = .ok port) (hlow : 1 ≤ port) (hhigh : port ≤ 65535) :
    InventoryRecord.portValidator value = .ok port := by
  rw [InventoryRecord.portValidator, PyVal.isBlank_of_toInt hport]
  refine PyError.bind_eq_ok.mpr ⟨port, hport, if_neg ?_⟩
  omega

theorem toInt_of_intValue? {value : PyVal} {i : ℤ} (h : intValue? value = some i) :
    value.toInt = .ok i := by
  cases value with
  | none => cases h
  | str s => cases h
  | int j => rw [Option.some.inj h, PyVal.toInt]
  | bool b => rw [← Option.some.inj h, PyVal.toInt]

/-- **A port is checked as it should be** exactly if it is no integer outside 1 to 65535. -/
theorem portAgrees_iff (env : DiscoveryEnv) (value : PyVal) :
    PortAgrees env value ↔ ∀ i, intValue? value = some i → 1 ≤ i ∧ i ≤ 65535 := by
  constructor
  · intro h i hi
    have hfield : DiscoveryRecord.portField (portOnly value) = .value (some i) := by
      have hget : (portOnly value).scalars.get? "port" = some value := rfl
      rw [DiscoveryRecord.portField_of_get? hget]
      exact DiscoveryRecord.portOutcome_of_intValue? hi
    obtain ⟨port, hport, hdenotes, -⟩ :=
      h.accepted (portOnly value) _ rfl (ofKeywords_portOnly env value hfield)
    obtain rfl : i = port := Option.some.inj hport
    rcases hdenotes with ⟨rfl, -⟩ | ⟨-, hrange⟩
    · cases hi
    · exact hrange
  · intro h
    have hdenotes : ∀ i, intValue? value = some i →
        (value = .none ∧ i = 161 ∨ value.toInt = .ok i ∧ 1 ≤ i ∧ i ≤ 65535) ∧
        InventoryRecord.portValidator value = .ok i ∧
        InventoryRecord.portValidator (.int i) = .ok i := by
      intro i hi
      obtain ⟨hlow, hhigh⟩ := h i hi
      exact ⟨Or.inr ⟨toInt_of_intValue? hi, hlow, hhigh⟩,
        InventoryRecord.portValidator_of_range (toInt_of_intValue? hi) hlow hhigh,
        InventoryRecord.portValidator_of_range rfl hlow hhigh⟩
    refine ⟨fun config record hget hrecord => ?_, fun config err hget herr ⟨record, hrest⟩ => ?_⟩
    · have hfield := DiscoveryRecord.ofKeywords_port hrecord
      rw [DiscoveryRecord.portField_of_get? hget] at hfield
      rcases DiscoveryRecord.portOutcome_cases value with hport | ⟨rfl, hport⟩ | ⟨i, hi, hport⟩
      · rw [hport] at hfield
        cases hfield
      · rw [hport] at hfield
        exact ⟨161, (FieldOutcome.value.inj hfield).symm, Or.inl ⟨rfl, rfl⟩, rfl, rfl⟩
      · rw [hport] at hfield
        exact ⟨i, (FieldOutcome.value.inj hfield).symm, hdenotes i hi⟩
    · obtain ⟨hvalue, hinvalid⟩ := DiscoveryRecord.ofKeywords_of_withoutPort hrest
      have hfield := DiscoveryRecord.portField_of_get? hget
      rcases DiscoveryRecord.portOutcome_cases value with hport | ⟨-, hport⟩ | ⟨i, -, hport⟩
      · rw [hinvalid (hfield.trans hport)] at herr
        exact (Except.error.inj herr).symm
      · rw [hvalue _ (hfield.trans hport)] at herr
        cases herr
      · rw [hvalue _ (hfield.trans hport)] at herr
        cases herr

/-- Every value is a network, and no rule is made a mapping. -/
def plainDiscovery : DiscoveryEnv := ⟨fun _ => true, fun _ => none⟩

/-- **A discovery takes a port that is none**, and the inventory does not. -/
theorem portAgrees_tooLarge :
    DiscoveryRecord.ofKeywords plainDiscovery (portOnly (.int 70000)) =
        .ok (portRecord (some 70000)) ∧
      InventoryRecord.portValidator (.int 70000) = .error .valueError ∧
      ¬ PortAgrees plainDiscovery (.int 70000) := by
  have hget : (portOnly (.int 70000)).scalars.get? "port" = some (.int 70000) := rfl
  have htaken := ofKeywords_portOnly plainDiscovery (.int 70000)
    (DiscoveryRecord.portField_of_get? hget)
  refine ⟨htaken, rfl, fun h => ?_⟩
  obtain ⟨port, hport, _, hinventory, _⟩ := h.accepted _ _ rfl htaken
  cases hport
  cases hinventory

end Sc4snmp
