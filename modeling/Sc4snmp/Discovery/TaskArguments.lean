import Sc4snmp.Discovery.DiscoverDevices

/-!
# The arguments of a discovery

The record of a discovery goes to its task as the keyword arguments that `dict` makes of it, and
the task builds a record from these.  A field that was left to its default comes back as `None`
and passes its validator there, so that the task may see another value.

## Main definitions

* `DiscoveryRecord.dict` — the arguments.
* `DiscoveryRecord.filled` — the record with what the validators make of `None`.

## Main results

* `ofKeywords_dict` — **the task has the record with the defaults of the validators**, and every
  further passage leaves it.
-/

namespace Sc4snmp

open Validation

/-- A text or `None`. -/
def optStr (s : Option String) : PyVal := s.elim .none .str

/-- `DiscoveryRecord.dict`. -/
def DiscoveryRecord.dict (record : DiscoveryRecord) : DiscoveryConfig where
  scalars := Dict.ofList
    [("discovery_name", optStr record.discoveryName),
      ("network_address", optStr record.networkAddress), ("address", optStr record.address),
      ("port", record.port.elim .none .int), ("version", optStr record.version),
      ("community", optStr record.community), ("secret", optStr record.secret),
      ("security_engine", optStr record.securityEngine),
      ("frequency", record.frequency.elim .none .int),
      ("delete_already_discovered", record.deleteAlreadyDiscovered.elim .none .bool)]
  deviceRules := some record.rulesValue

namespace DiscoveryRecord

/-- The record after its passage through the arguments of a task. -/
def filled (record : DiscoveryRecord) : DiscoveryRecord :=
  { record with
    version := some (record.version.getD "2c")
    securityEngine := record.securityEngine.filter fun s => !Text.isBlank s
    frequency := some (record.frequency.getD 86400)
    deleteAlreadyDiscovered := some (record.deleteAlreadyDiscovered.getD false) }

variable {env : DiscoveryEnv} {config : DiscoveryConfig} {record : DiscoveryRecord}

/-! ### Fields -/

theorem outcomeOf_eq_value_iff {α : Type} {x : Except PyError α} {a : α} :
    outcomeOf x = .value a ↔ x = .ok a := by
  cases x with
  | ok b => simp [outcomeOf]
  | error err => cases err <;> simp [outcomeOf]

/-- A field has its default, or what becomes of its setting. -/
theorem fieldOf_eq_value {α : Type} {key : String} {default a : α}
    {validator : PyVal → Except PyError α}
    (h : fieldOf config key default validator = .value a) :
    a = default ∨ ∃ value, config.scalars.get? key = some value ∧ validator value = .ok a := by
  rw [fieldOf] at h
  split at h
  · next value hvalue => exact .inr ⟨value, hvalue, outcomeOf_eq_value_iff.mp h⟩
  · exact .inl (FieldOutcome.value.inj h).symm

theorem fieldOf_of_get? {α : Type} {key : String} {default a : α}
    {validator : PyVal → Except PyError α} {value : PyVal}
    (hget : config.scalars.get? key = some value) (hvalue : validator value = .ok a) :
    fieldOf config key default validator = .value a := by
  rw [fieldOf, hget]
  dsimp only
  rw [hvalue]
  rfl

/-- A text passes its type. -/
theorem asStr_optStr (s : Option String) : asStr (optStr s) = .ok s := by
  cases s <;> rfl

/-- The text of a value that is there is not blank. -/
theorem isBlank_format {value : PyVal} (h : value.isBlank = false) :
    Text.isBlank value.format = false := by
  cases value with
  | none => cases h
  | str s => exact h
  | int i => exact Text.isBlank_toString i
  | bool b => cases b <;> decide

/-- What is left of a text that may be blank. -/
theorem asStr_textValidator_optStr (s : Option String) :
    asStr (textValidator (optStr s)) = .ok (s.filter fun s => !Text.isBlank s) := by
  cases s with
  | none => rfl
  | some s =>
    by_cases hs : Text.isBlank s = true
    · have hblank : (optStr (some s)).isBlank = true := hs
      rw [textValidator, if_pos hblank, Option.filter_some, hs]
      rfl
    · have hblank : ¬ (optStr (some s)).isBlank = true := hs
      rw [textValidator, if_neg hblank, Option.filter_some, Bool.not_eq_true _ |>.mp hs]
      rfl

/-- A text that has been checked is not blank. -/
theorem filter_of_textValidator {value : PyVal} {s : Option String}
    (h : asStr (textValidator value) = .ok s) : (s.filter fun s => !Text.isBlank s) = s := by
  rw [textValidator] at h
  split at h
  · cases h
    rfl
  · next hblank =>
    have hblank : value.isBlank = false := by simpa using hblank
    cases value with
    | none => cases hblank
    | _ =>
      cases h
      rw [Option.filter_some, isBlank_format hblank]
      rfl

/-- A version that has been checked is one of three. -/
theorem version_cases {value : PyVal} {version : Option String}
    (h : (versionValidator value >>= asStr) = .ok version) :
    version = some "1" ∨ version = some "2c" ∨ version = some "3" := by
  have hversion : ∃ v, InventoryRecord.versionValidator value = .ok v ∧ version = some v := by
    rw [versionValidator] at h
    cases hv : InventoryRecord.versionValidator value with
    | error err =>
      rw [hv] at h
      cases h
    | ok v =>
      rw [hv] at h
      cases h
      exact ⟨v, rfl, rfl⟩
  obtain ⟨v, hv, rfl⟩ := hversion
  cases value with
  | none =>
    cases hv
    exact .inr (.inl rfl)
  | str s =>
    rw [InventoryRecord.versionValidator] at hv
    split at hv
    · cases hv
      exact .inr (.inl rfl)
    · split at hv
      · next hmem =>
        cases hv
        simpa using hmem
      · cases hv
  | int i => cases hv
  | bool b => cases hv

/-- A version that has been checked passes again. -/
theorem version_again {value : PyVal} {version : Option String}
    (h : (versionValidator value >>= asStr) = .ok version) :
    (versionValidator (optStr version) >>= asStr) = .ok version := by
  rcases version_cases h with rfl | rfl | rfl <;> rfl

theorem frequencyValidator_of_le {i : ℤ} (h : ¬ i < 21600) :
    (frequencyValidator (.int i) >>= asInt) = .ok (some i) := by
  have hvalue : intValue? (.int i) = some i := rfl
  simp only [frequencyValidator, hvalue, if_neg h]
  rfl

/-- A frequency that has been checked is long enough. -/
theorem frequency_cases {value : PyVal} {frequency : Option ℤ}
    (h : (frequencyValidator value >>= asInt) = .ok frequency) :
    ∃ i, frequency = some i ∧ ¬ i < 21600 := by
  cases value with
  | none =>
    cases h
    exact ⟨86400, rfl, by decide⟩
  | str s => cases h
  | int i =>
    by_cases hi : i < 21600
    · have hvalue : intValue? (.int i) = some i := rfl
      simp only [frequencyValidator, hvalue, if_pos hi] at h
      cases h
      exact ⟨21600, rfl, by decide⟩
    · rw [frequencyValidator_of_le hi] at h
      cases h
      exact ⟨i, rfl, hi⟩
  | bool b =>
    cases b <;> cases h <;> exact ⟨21600, rfl, by decide⟩

/-- A port that has been checked is a number. -/
theorem port_cases {port : Option ℤ} (h : portField config = .value port) :
    ∃ i, port = some i := by
  cases hget : config.scalars.get? "port" with
  | none =>
    rw [portField, fieldOf, hget] at h
    cases h
    exact ⟨161, rfl⟩
  | some value =>
    rw [portField_of_get? hget] at h
    rcases portOutcome_cases value with hport | ⟨-, hport⟩ | ⟨i, -, hport⟩
    · rw [hport] at h
      cases h
    · rw [hport] at h
      exact ⟨161, (FieldOutcome.value.inj h).symm⟩
    · rw [hport] at h
      exact ⟨i, (FieldOutcome.value.inj h).symm⟩

/-- What `asRules` makes of one rule. -/
def ruleOf (env : DiscoveryEnv) : Json → Option Json
  | .obj members => some (.obj members)
  | rule => env.dictOf rule

theorem asRules_arr_eq_ok_iff {rules : List Json} {out : Option (List Json)} :
    asRules env (.arr rules) = .ok out ↔
      ∃ rs, out = some rs ∧ rules.mapM (ruleOf env) = some rs := by
  rw [asRules]
  split
  · next rs h =>
    have h : rules.mapM (ruleOf env) = some rs := by
      rw [← h]
      congr 1
    rw [h]
    constructor
    · intro hout
      exact ⟨rs, (Except.ok.inj hout).symm, rfl⟩
    · rintro ⟨rs', rfl, hrs⟩
      rw [Option.some.inj hrs]
  · next h =>
    have h : rules.mapM (ruleOf env) = none := by
      rw [← h]
      congr 1
    rw [h]
    simp

/-- Rules that are mappings are kept. -/
theorem mapM_ruleOf {rules : List Json} (h : ∀ rule ∈ rules, ∃ members, rule = .obj members) :
    rules.mapM (ruleOf env) = some rules := by
  induction rules with
  | nil => rfl
  | cons rule rules ih =>
    rw [List.forall_mem_cons] at h
    obtain ⟨⟨members, rfl⟩, h⟩ := h
    rw [List.mapM_cons, ih h]
    rfl

/-- The result for a list of rules: as many mappings. -/
theorem of_mapM_ruleOf (hdict : ∀ v r, env.dictOf v = some r → ∃ members, r = .obj members)
    {rules rs : List Json} (h : rules.mapM (ruleOf env) = some rs) :
    rs.length = rules.length ∧ ∀ rule ∈ rs, ∃ members, rule = .obj members := by
  induction rules generalizing rs with
  | nil =>
    cases h
    exact ⟨rfl, by simp⟩
  | cons rule rules ih =>
    rw [List.mapM_cons] at h
    obtain ⟨r, hr, h⟩ := Option.bind_eq_some_iff.mp h
    obtain ⟨rs', hrs, h⟩ := Option.bind_eq_some_iff.mp h
    cases h
    obtain ⟨hlength, hobj⟩ := ih hrs
    refine ⟨congrArg Nat.succ hlength, List.forall_mem_cons.mpr ⟨?_, hobj⟩⟩
    cases rule with
    | obj members => exact ⟨members, (Option.some.inj hr).symm⟩
    | _ => exact hdict _ _ hr

/-- Rules that have been checked are mappings, and there are some. -/
theorem rules_cases (hdict : ∀ v r, env.dictOf v = some r → ∃ members, r = .obj members)
    {rules : Option (List Json)} (h : rulesField env config = .value rules) :
    rules = none ∨ ∃ rs, rules = some rs ∧ rs ≠ [] ∧
      ∀ rule ∈ rs, ∃ members, rule = .obj members := by
  rw [rulesField] at h
  cases hrules : config.deviceRules with
  | none =>
    rw [hrules] at h
    exact .inl (FieldOutcome.value.inj h).symm
  | some value =>
    rw [hrules, Option.elim_some, outcomeOf_eq_value_iff] at h
    cases value with
    | null =>
      cases h
      exact .inl rfl
    | arr given =>
      cases given with
      | nil =>
        cases h
        exact .inl rfl
      | cons rule given =>
        obtain ⟨rs, rfl, hrs⟩ := asRules_arr_eq_ok_iff.mp h
        obtain ⟨hlength, hobj⟩ := of_mapM_ruleOf hdict hrs
        refine .inr ⟨rs, rfl, ?_, hobj⟩
        rintro rfl
        cases hlength
    | _ => cases h

/-- Rules that are mappings come back. -/
theorem rulesField_dict {rs : List Json} (hne : rs ≠ [])
    (hobj : ∀ rule ∈ rs, ∃ members, rule = .obj members) :
    asRules env (deviceRulesValidator (.arr rs)) = .ok (some rs) := by
  cases rs with
  | nil => exact absurd rfl hne
  | cons r rs => exact asRules_arr_eq_ok_iff.mpr ⟨_, rfl, mapM_ruleOf hobj⟩

/-! ### The passage -/

/-- The arguments, field by field. -/
theorem get?_dict (record : DiscoveryRecord) (key : String) :
    record.dict.scalars.get? key = List.lookup key
      [("discovery_name", optStr record.discoveryName),
        ("network_address", optStr record.networkAddress), ("address", optStr record.address),
        ("port", record.port.elim .none .int), ("version", optStr record.version),
        ("community", optStr record.community), ("secret", optStr record.secret),
        ("security_engine", optStr record.securityEngine),
        ("frequency", record.frequency.elim .none .int),
        ("delete_already_discovered", record.deleteAlreadyDiscovered.elim .none .bool)] := by
  rw [dict, Dict.get?_ofList _ (by simp)]

/-- What the validators make of the fields of a record. -/
structure Checked (env : DiscoveryEnv) (record : DiscoveryRecord) : Prop where
  network : ∃ address, record.networkAddress = some address ∧ env.isNetwork (.str address) = true
  port : ∃ i, record.port = some i
  version : record.version = none ∨ ∃ value : PyVal,
    (versionValidator value >>= asStr) = .ok record.version
  community : (record.community.filter fun s => !Text.isBlank s) = record.community
  secret : (record.secret.filter fun s => !Text.isBlank s) = record.secret
  frequency : record.frequency = none ∨ ∃ i, record.frequency = some i ∧ ¬ i < 21600
  rules : record.deviceRules = none ∨ ∃ rs, record.deviceRules = some rs ∧ rs ≠ [] ∧
    ∀ rule ∈ rs, ∃ members, rule = .obj members

theorem checked_of_ofKeywords
    (hdict : ∀ v r, env.dictOf v = some r → ∃ members, r = .obj members)
    (h : ofKeywords env config = .ok record)
    (hnetwork : ∃ address, record.networkAddress = some address ∧
      env.isNetwork (.str address) = true) : Checked env record := by
  obtain ⟨-, -, -, hport, hversion, hcommunity, hsecret, -, hfrequency, -, hrules⟩ :=
    ofKeywords_eq_ok_iff.mp h
  refine ⟨hnetwork, port_cases hport, ?_, ?_, ?_, ?_, rules_cases hdict hrules⟩
  · rcases fieldOf_eq_value hversion with hnone | ⟨value, -, hvalue⟩
    · exact .inl hnone
    · exact .inr ⟨value, hvalue⟩
  · rcases fieldOf_eq_value hcommunity with hnone | ⟨value, -, hvalue⟩
    · rw [hnone]
      rfl
    · exact filter_of_textValidator hvalue
  · rcases fieldOf_eq_value hsecret with hnone | ⟨value, -, hvalue⟩
    · rw [hnone]
      rfl
    · exact filter_of_textValidator hvalue
  · rcases fieldOf_eq_value hfrequency with hnone | ⟨value, -, hvalue⟩
    · exact .inl hnone
    · exact .inr (frequency_cases hvalue)

/-- A record that has been checked passes with its defaults filled in. -/
theorem Checked.dict_ok (h : Checked env record) :
    ofKeywords env record.dict = .ok record.filled := by
  obtain ⟨⟨address, haddress, hnetwork⟩, ⟨port, hport⟩, hversion, hcommunity, hsecret, hfrequency,
    hrules⟩ := h
  have hget := get?_dict record
  rw [ofKeywords_eq_ok_iff]
  refine ⟨?_, ?_, ?_, ?_, ?_, ?_, ?_, ?_, ?_, ?_, ?_⟩
  · exact fieldOf_of_get? ((hget _).trans rfl) (asStr_optStr _)
  · refine fieldOf_of_get? ((hget _).trans rfl) ?_
    rw [filled, haddress, optStr, Option.elim_some, networkAddressValidator, if_pos hnetwork]
    · rfl
    · exact PyVal.noConfusion
  · exact fieldOf_of_get? ((hget _).trans rfl) (asStr_optStr _)
  · rw [portField_of_get? ((hget _).trans rfl), filled, hport]
    rfl
  · refine fieldOf_of_get? ((hget _).trans rfl) ?_
    rcases hversion with hnone | ⟨value, hvalue⟩
    · rw [filled, hnone]
      rfl
    · obtain ⟨v, hv⟩ : ∃ v, record.version = some v := by
        rcases version_cases hvalue with hv | hv | hv <;> exact ⟨_, hv⟩
      rw [version_again hvalue, filled, hv]
      rfl
  · refine fieldOf_of_get? ((hget _).trans rfl) ?_
    rw [asStr_textValidator_optStr, hcommunity]
    rfl
  · refine fieldOf_of_get? ((hget _).trans rfl) ?_
    rw [asStr_textValidator_optStr, hsecret]
    rfl
  · exact fieldOf_of_get? ((hget _).trans rfl) (asStr_textValidator_optStr _)
  · refine fieldOf_of_get? ((hget _).trans rfl) ?_
    rcases hfrequency with hnone | ⟨i, hi, hle⟩
    · rw [filled, hnone]
      rfl
    · rw [filled, hi, Option.elim_some, frequencyValidator_of_le hle]
      rfl
  · refine fieldOf_of_get? ((hget _).trans rfl) ?_
    rw [filled]
    cases record.deleteAlreadyDiscovered <;> rfl
  · rw [rulesField, dict, Option.elim_some, outcomeOf_eq_value_iff, rulesValue, filled]
    rcases hrules with hnone | ⟨rs, hrs, hne, hobj⟩
    · rw [hnone]
      rfl
    · rw [hrs]
      exact rulesField_dict hne hobj

theorem Checked.filled (h : Checked env record) : Checked env record.filled := by
  refine ⟨h.network, h.port, ?_, h.community, h.secret, ?_, h.rules⟩
  · rcases h.version with hnone | ⟨value, hvalue⟩
    · refine .inr ⟨.none, ?_⟩
      rw [DiscoveryRecord.filled, hnone]
      rfl
    · refine .inr ⟨value, ?_⟩
      rcases version_cases hvalue with hv | hv | hv <;>
        rw [DiscoveryRecord.filled, hvalue, hv] <;> rfl
  · rcases h.frequency with hnone | ⟨i, hi, hle⟩
    · refine .inr ⟨86400, ?_, by decide⟩
      rw [DiscoveryRecord.filled, hnone]
      rfl
    · refine .inr ⟨i, ?_, hle⟩
      rw [DiscoveryRecord.filled, hi]
      rfl

theorem filled_filled (record : DiscoveryRecord) : record.filled.filled = record.filled := by
  have hengine : ((record.securityEngine.filter fun s => !Text.isBlank s).filter
      fun s => !Text.isBlank s) = record.securityEngine.filter fun s => !Text.isBlank s := by
    rw [Option.filter_filter]
    simp
  simp only [filled, hengine, Option.getD_some]

/-- **The task of a discovery has its record**, with the defaults of the validators: a version, a
frequency and whether to delete are filled in, and a blank security engine is none.  Any further
passage leaves the record. -/
theorem ofKeywords_dict (hdict : ∀ v r, env.dictOf v = some r → ∃ members, r = .obj members)
    (h : ofKeywords env config = .ok record)
    (hnetwork : ∃ address, record.networkAddress = some address ∧
      env.isNetwork (.str address) = true) :
    ofKeywords env record.dict = .ok record.filled ∧
      ofKeywords env record.filled.dict = .ok record.filled := by
  have hchecked := checked_of_ofKeywords hdict h hnetwork
  have hfilled := hchecked.filled.dict_ok
  rw [filled_filled] at hfilled
  exact ⟨hchecked.dict_ok, hfilled⟩

/-- Settings of which only the network is there. -/
def networkOnly (network : String) : DiscoveryConfig :=
  ⟨Dict.empty.insert "network_address" (.str network), none⟩

/-- A record of nothing but a network. -/
theorem ofKeywords_dict_networkOnly :
    ofKeywords plainDiscovery (networkOnly "192.0.2.0/30") = .ok
        { portRecord (some 161) with networkAddress := some "192.0.2.0/30" } ∧
      ofKeywords plainDiscovery ({ portRecord (some 161) with
          networkAddress := some "192.0.2.0/30" } : DiscoveryRecord).dict =
        .ok { portRecord (some 161) with
          networkAddress := some "192.0.2.0/30", version := some "2c", securityEngine := none,
          frequency := some 86400, deleteAlreadyDiscovered := some false } := by
  have h : ofKeywords plainDiscovery (networkOnly "192.0.2.0/30") = .ok
      { portRecord (some 161) with networkAddress := some "192.0.2.0/30" } := rfl
  exact ⟨h, (ofKeywords_dict (fun v r hr => by cases hr) h ⟨_, rfl, rfl⟩).1⟩

end DiscoveryRecord

end Sc4snmp
