import Sc4snmp.Common.InventoryRecord
import Sc4snmp.Lib.PyNumber

/-!
# Inventory records from any keyword arguments

`InventoryRecord.ofSource` builds a record from the scalar columns of a line.  The constructor
takes any values: numbers that are not integers, octets, lists, and objects the validators can
do nothing with.  What the elements of a list of profiles are does not matter to it; they are an
arbitrary type here, of which only the texts are told apart.

A field is read in two steps, its validator first and the type of the field after it.  For the
fields of texts the two are kept apart, because the type reads more than the validator looks at:
octets are decoded only after the validator has taken them for a value that is not blank.

## Main definitions

* `Keyword`, `Keywords` — a value, and the keyword arguments.
* `KeywordRecord`, `KeywordRecord.ofKeywords` — a record and its constructor.
* `KeywordRecord.asdict` — `InventoryRecord.asdict`.

## Main results

* `KeywordRecord.ofKeywords_eq_ok_iff` — a record is what its fields are read as.
* `KeywordRecord.ofKeywords_ofSource` — on a line of scalars this is `InventoryRecord.ofSource`.
-/

namespace Sc4snmp

variable {ω : Type}

/-! ### Values -/

/-- A value a record can be built from. -/
inductive Keyword (ω : Type)
  | scalar (v : PyVal)
  | number (x : PyNumber)
  | octets (bytes : List UInt8)
  /-- A list, a tuple, a set or a deque. -/
  | sequence (elements : List ω)
  /-- Any other object, with what `bool` and `int` make of it. -/
  | object (truthy : Bool) (toInt : Option ℤ)
  deriving DecidableEq

/-- The keyword arguments of a constructor. -/
abbrev Keywords (ω : Type) := Dict String (Keyword ω)

namespace Keyword

/-- The value is missing: nothing, or a text of white space.  Octets are never blank. -/
def isBlank : Keyword ω → Bool
  | scalar v => v.isBlank
  | _ => false

/-- The truth value. -/
def truthy : Keyword ω → Bool
  | scalar v => v.truthy
  | number x => x.truthy
  | octets bytes => !bytes.isEmpty
  | sequence elements => !elements.isEmpty
  | object truthy _ => truthy

/-- `bytes.decode`. -/
def decode (bytes : List UInt8) : Option String := String.fromUTF8? ⟨bytes.toArray⟩

/-- `int` of octets, which reads ASCII only. -/
def octetsToInt (bytes : List UInt8) : Option ℤ :=
  if bytes.all (· < 128) then (decode bytes).bind Text.parseInt else none

/-- `int`. -/
def toInt : Keyword ω → Except PyError ℤ
  | scalar v => v.toInt
  | number x => x.toInt.elim (.error .valueError) .ok
  | octets bytes => (octetsToInt bytes).elim (.error .valueError) .ok
  | sequence _ => .error .typeError
  | object _ toInt => toInt.elim (.error .typeError) .ok

/-- What the type `InventoryStr` reads a value as. -/
def toText : Keyword ω → Except PyError (Option String)
  | scalar .none => .ok none
  | scalar v => .ok (some v.format)
  | number x => .ok (some x.text)
  | octets bytes => (decode bytes).elim (.error .valueError) (.ok ∘ some)
  | sequence _ => .error .valueError
  | object _ _ => .error .valueError

/-- An optional text as a value. -/
def ofText? : Option String → Keyword ω
  | some s => scalar (.str s)
  | none => scalar .none

/-- An optional integer as a value. -/
def ofInt? : Option ℤ → Keyword ω
  | some i => scalar (.int i)
  | none => scalar .none

/-- An optional truth value as a value. -/
def ofBool? : Option Bool → Keyword ω
  | some b => scalar (.bool b)
  | none => scalar .none

/-- `human_bool`, with its default `False`: octets have a lower case, but are no text. -/
def humanBool : Keyword ω → Except PyError Bool
  | scalar v => Sc4snmp.humanBool v
  | octets _ => .ok false
  | _ => .error .attributeError

/-! ### Validators -/

/-- `port_validator`. -/
def portValidator (v : Keyword ω) : Except PyError ℤ :=
  if v.isBlank then .ok 161
  else do
    let value ← v.toInt
    if value < 1 ∨ 65535 < value then .error .valueError else .ok value

/-- `address_validator`.  Octets start with no text. -/
def addressValidator (lookup : AddressLookup) (port : ℤ) : Keyword ω → Except PyError String
  | scalar v => InventoryRecord.addressValidator lookup port v
  | octets _ => .error .typeError
  | _ => .error .attributeError

/-- `version_validator`. -/
def versionValidator : Keyword ω → Except PyError String
  | scalar v => InventoryRecord.versionValidator v
  | octets _ => .error .valueError
  | _ => .error .attributeError

/-- `community_secret_security_engine_validator`. -/
def textValidator (v : Keyword ω) : Keyword ω := if v.isBlank then scalar .none else v

/-- `walk_interval_validator`. -/
def walkIntervalValidator (v : Keyword ω) : Except PyError ℤ :=
  if !v.truthy then .ok 42000
  else do
    let v ← v.toInt
    .ok (if v < 1800 then 1800 else if 604800 < v then 604800 else v)

/-- `max_oid_to_process_validator`. -/
def maxOidToProcessValidator (v : Keyword ω) : Except PyError (Option ℤ) :=
  if v.isBlank then .ok none
  else do
    let v ← v.toInt
    .ok (if v < 1 then none else some v)

/-- `profiles_validator`, and the check that what it lets through is a list. -/
def profilesValidator (text : String → ω) (v : Keyword ω) : Except PyError (List ω) :=
  if v.isBlank then .ok []
  else match v with
    | scalar (.str value) => .ok ((Text.splitOn ';' value).map text)
    | sequence elements => .ok elements
    | _ => .error .typeError

/-- `smart_profiles_validator`. -/
def smartProfilesValidator (v : Keyword ω) : Except PyError Bool :=
  if v.isBlank then .ok true else humanBool v

/-- `delete_validator`. -/
def deleteValidator (v : Keyword ω) : Except PyError Bool :=
  if v.isBlank then .ok false else humanBool v

/-- `group_validator`: an empty group is `False`. -/
def groupValidator (v : Keyword ω) : Keyword ω :=
  if v.isBlank then scalar (.bool false) else v

end Keyword

/-! ### The constructor -/

/-- `ALTERNATIVE_FIELDS`. -/
def alternativeFields : List (String × String) :=
  [("securityEngine", "security_engine"), ("SmartProfiles", "smart_profiles")]

namespace Keywords

/-- A field under its old name stands for the current one. -/
def renameAlternative (kwargs : Keywords ω) (names : String × String) : Keywords ω :=
  match kwargs.get? names.1 with
  | some v => (kwargs.insert names.2 v).erase names.1
  | none => kwargs

/-- The beginning of `__init__`. -/
def renameAlternatives (kwargs : Keywords ω) : Keywords ω :=
  alternativeFields.foldl renameAlternative kwargs

/-- The value a field is given. -/
def given? (kwargs : Keywords ω) (field : String) : Option (Keyword ω) :=
  kwargs.renameAlternatives.get? field

/-- A field through its validator, or its default. -/
def validated {α : Type} (kwargs : Keywords ω) (field : String) (default : α)
    (validator : Keyword ω → Except PyError α) : Except PyError α :=
  match kwargs.given? field with
  | some v => validator v
  | none => .ok default

/-- A field without a default. -/
def required {α : Type} (kwargs : Keywords ω) (field : String)
    (validator : Keyword ω → Except PyError α) : Except PyError α :=
  match kwargs.given? field with
  | some v => validator v
  | none => .error .keyError

end Keywords

/-- A record of the inventory, with profiles that need not be texts. -/
structure KeywordRecord (ω : Type) where
  port : ℤ
  address : Option String
  version : Option String
  community : Option String
  secret : Option String
  securityEngine : Option String
  walkInterval : ℤ
  maxOidToProcess : Option ℤ
  profiles : List ω
  smartProfiles : Option Bool
  delete : Option Bool
  group : Option String
  deriving DecidableEq

namespace KeywordRecord

open Keyword Keywords

/-- `InventoryRecord(**kwargs)`.  An argument called `self` is already taken. -/
def ofKeywords (lookup : AddressLookup) (text : String → ω) (kwargs : Keywords ω) :
    Except PyError (KeywordRecord ω) :=
  if "self" ∈ kwargs then .error .typeError
  else do
    let port ← kwargs.validated "port" 161 portValidator
    let address ← kwargs.validated "address" none fun v => some <$> addressValidator lookup port v
    let version ← kwargs.validated "version" none fun v => some <$> versionValidator v
    let community ← kwargs.validated "community" none fun v => (textValidator v).toText
    let secret ← kwargs.validated "secret" none fun v => (textValidator v).toText
    let securityEngine ← kwargs.validated "security_engine" (some "")
      fun v => (textValidator v).toText
    let walkInterval ← kwargs.validated "walk_interval" 42000 walkIntervalValidator
    let maxOidToProcess ← kwargs.validated "max_oid_to_process" none maxOidToProcessValidator
    let profiles ← kwargs.required "profiles" (profilesValidator text)
    let smartProfiles ← kwargs.validated "smart_profiles" none
      fun v => some <$> smartProfilesValidator v
    let delete ← kwargs.validated "delete" none fun v => some <$> deleteValidator v
    let group ← kwargs.validated "group" none fun v => (groupValidator v).toText
    return { port, address, version, community, secret, securityEngine, walkInterval,
             maxOidToProcess, profiles, smartProfiles, delete, group }

/-- `asdict`: the fields under their names. -/
def asdict (r : KeywordRecord ω) : Keywords ω where
  entries :=
    [("port", scalar (.int r.port)), ("address", ofText? r.address),
     ("version", ofText? r.version), ("community", ofText? r.community),
     ("secret", ofText? r.secret), ("security_engine", ofText? r.securityEngine),
     ("walk_interval", scalar (.int r.walkInterval)),
     ("max_oid_to_process", ofInt? r.maxOidToProcess), ("profiles", sequence r.profiles),
     ("smart_profiles", ofBool? r.smartProfiles), ("delete", ofBool? r.delete),
     ("group", ofText? r.group)]
  nodupKeys := by simp

/-! ### The fields of a record -/

theorem self_notMem_asdict (r : KeywordRecord ω) : "self" ∉ r.asdict :=
  Dict.get?_eq_none_iff.mp rfl

/-- The fields of a record are what the keyword arguments are read as. -/
structure ReadFrom (lookup : AddressLookup) (text : String → ω) (kwargs : Keywords ω)
    (r : KeywordRecord ω) : Prop where
  port : kwargs.validated "port" 161 portValidator = .ok r.port
  address : kwargs.validated "address" none
    (fun v => some <$> addressValidator lookup r.port v) = .ok r.address
  version : kwargs.validated "version" none (fun v => some <$> versionValidator v) = .ok r.version
  community : kwargs.validated "community" none (fun v => (textValidator v).toText) =
    .ok r.community
  secret : kwargs.validated "secret" none (fun v => (textValidator v).toText) = .ok r.secret
  securityEngine : kwargs.validated "security_engine" (some "")
    (fun v => (textValidator v).toText) = .ok r.securityEngine
  walkInterval : kwargs.validated "walk_interval" 42000 walkIntervalValidator = .ok r.walkInterval
  maxOidToProcess : kwargs.validated "max_oid_to_process" none maxOidToProcessValidator =
    .ok r.maxOidToProcess
  profiles : kwargs.required "profiles" (profilesValidator text) = .ok r.profiles
  smartProfiles : kwargs.validated "smart_profiles" none
    (fun v => some <$> smartProfilesValidator v) = .ok r.smartProfiles
  delete : kwargs.validated "delete" none (fun v => some <$> deleteValidator v) = .ok r.delete
  group : kwargs.validated "group" none (fun v => (groupValidator v).toText) = .ok r.group

/-- A record is what its fields are read as. -/
theorem ofKeywords_eq_ok_iff {lookup : AddressLookup} {text : String → ω} {kwargs : Keywords ω}
    {r : KeywordRecord ω} :
    ofKeywords lookup text kwargs = .ok r ↔ "self" ∉ kwargs ∧ ReadFrom lookup text kwargs r := by
  rw [ofKeywords]
  by_cases hself : "self" ∈ kwargs
  · rw [if_pos hself]
    simp [hself]
  rw [if_neg hself]
  simp only [PyError.bind_eq_ok, pure, Except.pure, Except.ok.injEq]
  constructor
  · rintro ⟨_, hport, _, haddress, _, hversion, _, hcommunity, _, hsecret, _, hengine, _, hwalk,
      _, hmax, _, hprofiles, _, hsmart, _, hdelete, _, hgroup, rfl⟩
    exact ⟨hself, hport, haddress, hversion, hcommunity, hsecret, hengine, hwalk, hmax, hprofiles,
      hsmart, hdelete, hgroup⟩
  · rintro ⟨-, h⟩
    exact ⟨_, h.port, _, h.address, _, h.version, _, h.community, _, h.secret, _,
      h.securityEngine, _, h.walkInterval, _, h.maxOidToProcess, _, h.profiles, _,
      h.smartProfiles, _, h.delete, _, h.group, rfl⟩

end KeywordRecord

/-! ### Lines of scalars -/

/-- The columns of a line as keyword arguments. -/
def SourceRecord.keywords (line : SourceRecord) : Keywords String :=
  line.columns.mapValues Keyword.scalar

/-- What is read of the columns is kept by a renaming. -/
theorem Keywords.get?_renameAlternative {kwargs : Keywords String} {line : SourceRecord}
    (hreads : ∀ key, kwargs.get? key = (line.columns.get? key).map Keyword.scalar)
    (names : String × String) (key : String) :
    (kwargs.renameAlternative names).get? key =
      ((match line.columns.get? names.1 with
        | some v => { line with columns := (line.columns.insert names.2 v).erase names.1 }
        | none => line).columns.get? key).map Keyword.scalar := by
  rw [Keywords.renameAlternative, hreads names.1]
  cases line.columns.get? names.1 with
  | none => exact hreads key
  | some v =>
    simp only [Option.map_some, Dict.get?_erase, Dict.get?_insert]
    split_ifs <;> first | rfl | exact hreads key

/-- The fields of a line are renamed alike. -/
theorem SourceRecord.given?_keywords (line : SourceRecord) (field : String) :
    line.keywords.given? field =
      ((InventoryRecord.renameAlternatives line).columns.get? field).map Keyword.scalar := by
  have hreads : ∀ key, line.keywords.get? key = (line.columns.get? key).map Keyword.scalar :=
    Dict.get?_mapValues Keyword.scalar line.columns
  have hfirst := Keywords.get?_renameAlternative hreads ("securityEngine", "security_engine")
  exact Keywords.get?_renameAlternative hfirst ("SmartProfiles", "smart_profiles") field

namespace KeywordRecord

open Keyword Keywords

/-- A record of the inventory, with its profiles as texts. -/
def ofInventory (ir : InventoryRecord) : KeywordRecord String := { ir with }

/-- A field of a line is read alike when the validators agree on scalars. -/
theorem validated_keywords {α : Type} (line : SourceRecord) (field : String) (default : α)
    (validator : Keyword String → Except PyError α) (validator' : PyVal → Except PyError α)
    (h : ∀ v, validator (scalar v) = validator' v) :
    line.keywords.validated field default validator =
      InventoryRecord.validated (InventoryRecord.renameAlternatives line) field default
        validator' := by
  rw [Keywords.validated, InventoryRecord.validated, SourceRecord.given?_keywords]
  cases (InventoryRecord.renameAlternatives line).columns.get? field with
  | none => rfl
  | some v => exact h v

/-- A scalar that is not blank is read as its format. -/
theorem toText_scalar {v : PyVal} (h : ¬ v.isBlank = true) :
    (scalar v : Keyword String).toText = .ok (some v.format) := by
  cases v with
  | none => exact absurd rfl h
  | bool b => rfl
  | int i => rfl
  | str s => rfl

theorem textValidator_scalar (v : PyVal) :
    (textValidator (scalar v : Keyword String)).toText = .ok (InventoryRecord.textValidator v) := by
  change (if v.isBlank then scalar .none else scalar v : Keyword String).toText =
    .ok (if v.isBlank then none else some v.format)
  split
  · rfl
  · next hblank => exact toText_scalar hblank

theorem groupValidator_scalar (v : PyVal) :
    (groupValidator (scalar v : Keyword String)).toText =
      .ok (some (InventoryRecord.groupValidator v)) := by
  change (if v.isBlank then scalar (.bool false) else scalar v : Keyword String).toText =
    .ok (some (if v.isBlank then "False" else v.format))
  split
  · rfl
  · next hblank => exact toText_scalar hblank

theorem profilesValidator_scalar (v : PyVal) :
    profilesValidator id (scalar v : Keyword String) = InventoryRecord.profilesValidator v := by
  cases v with
  | none => rfl
  | bool b => rfl
  | int i => rfl
  | str s =>
    rw [profilesValidator, List.map_id]
    rfl

/-- A line of scalars is read as `InventoryRecord.ofSource` reads it. -/
theorem ofKeywords_ofSource (lookup : AddressLookup) (line : SourceRecord)
    (h : line.restKey = none) :
    ofKeywords lookup id line.keywords =
      ofInventory <$> InventoryRecord.ofSource lookup line := by
  have hself : "self" ∈ line.keywords ↔ "self" ∈ line.columns := by
    change "self" ∈ line.keywords.keys ↔ "self" ∈ line.columns.keys
    rw [SourceRecord.keywords, ← Dict.isSome_get?_iff, Dict.get?_mapValues, Option.isSome_map,
      Dict.isSome_get?_iff]
  have hprofiles : line.keywords.required "profiles" (profilesValidator id) =
      ((InventoryRecord.renameAlternatives line).getItem "profiles").bind
        InventoryRecord.profilesValidator := by
    rw [Keywords.required, SourceRecord.getItem, SourceRecord.given?_keywords]
    cases (InventoryRecord.renameAlternatives line).columns.get? "profiles" with
    | none => rfl
    | some v => exact profilesValidator_scalar v
  have haddress : ∀ port, line.keywords.validated "address" none
      (fun v => some <$> addressValidator lookup port v) =
      InventoryRecord.validated (InventoryRecord.renameAlternatives line) "address" none
        fun v => some <$> InventoryRecord.addressValidator lookup port v :=
    fun port => validated_keywords line "address" none _ _ fun _ => rfl
  have htext : ∀ field default, line.keywords.validated field default
      (fun v => (textValidator v).toText) =
      InventoryRecord.validated (InventoryRecord.renameAlternatives line) field default
        fun v => .ok (InventoryRecord.textValidator v) :=
    fun field default => validated_keywords line field default _ _ textValidator_scalar
  rw [ofKeywords, InventoryRecord.ofSource, h, hprofiles,
    validated_keywords line "port" 161 portValidator InventoryRecord.portValidator fun _ => rfl,
    validated_keywords line "version" none _ (fun v => some <$> InventoryRecord.versionValidator v)
      fun _ => rfl,
    validated_keywords line "walk_interval" 42000 _ InventoryRecord.walkIntervalValidator
      fun _ => rfl,
    validated_keywords line "max_oid_to_process" none _ InventoryRecord.maxOidToProcessValidator
      fun _ => rfl,
    validated_keywords line "smart_profiles" none _
      (fun v => some <$> InventoryRecord.smartProfilesValidator v) fun _ => rfl,
    validated_keywords line "delete" none _ (fun v => some <$> InventoryRecord.deleteValidator v)
      fun _ => rfl,
    validated_keywords line "group" none _ (fun v => .ok (some (InventoryRecord.groupValidator v)))
      groupValidator_scalar]
  by_cases hreserved : "self" ∈ line.columns
  · rw [if_pos (hself.mpr hreserved), if_pos (Or.inr hreserved)]
    rfl
  · rw [if_neg (hself.not.mpr hreserved), if_neg (by simp [hreserved])]
    simp only [haddress, htext, map_bind]
    rfl

end KeywordRecord

end Sc4snmp
