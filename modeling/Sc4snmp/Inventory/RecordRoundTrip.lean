import Sc4snmp.Common.RecordKeywords
import Sc4snmp.Inventory.InventoryStore

/-!
# The round trip of a record

The loader stores the fields of a record; the pollers build the record again from them.  Every
field then goes through its validator a second time, even one that had not been given and took
its default without being looked at.  A default need not be what the validator makes of it:
a record without a version is read back with `2c`, one without a group with the group `False`.

## Main definitions

* `Keywords.Settled` — the fields with such defaults are given, and no text is blank octets.
* `getInventory` — the lookup of the pollers.

## Main results

* `Keywords.validated_again_iff` — a field is read back when its value or its default is.
* `KeywordRecord.ofKeywords_asdict` — **a record is built again from its fields exactly when the
  keyword arguments were settled**.
-/

namespace Sc4snmp

variable {ω : Type}

open Keyword Keywords

/-! ### Values that are read again -/

namespace Keyword

/-- Octets that are decoded to a text of white space. -/
def isBlankOctets : Keyword ω → Bool
  | octets bytes => (decode bytes).any Text.isBlank
  | _ => false

theorem portValidator_range {v : Keyword ω} {port : ℤ} (h : portValidator v = .ok port) :
    1 ≤ port ∧ port ≤ 65535 := by
  rw [portValidator] at h
  split at h
  · cases h
    decide
  · obtain ⟨value, -, h⟩ := PyError.bind_eq_ok.mp h
    split at h
    · cases h
    · next hvalue =>
      cases h
      omega

theorem portValidator_again {v : Keyword ω} {port : ℤ} (h : portValidator v = .ok port) :
    portValidator (scalar (.int port) : Keyword ω) = .ok port := by
  have hrange := portValidator_range h
  change (if port < 1 ∨ 65535 < port then Except.error PyError.valueError else .ok port) = _
  rw [if_neg (by omega)]

/-- An address is a text, and stays as it is. -/
theorem addressValidator_again {lookup : AddressLookup} {port : ℤ} {v : Keyword ω}
    {address : String} (h : addressValidator lookup port v = .ok address) :
    addressValidator lookup port (scalar (.str address) : Keyword ω) = .ok address := by
  have htext : v = scalar (.str address) := by
    unfold addressValidator InventoryRecord.addressValidator at h
    split at h
    · split at h
      · cases h
      · split_ifs at h
        cases h
        rfl
      · cases h
    · cases h
    · cases h
  rwa [htext] at h

theorem versionValidator_again {v : Keyword ω} {version : String}
    (h : versionValidator v = .ok version) :
    versionValidator (scalar (.str version) : Keyword ω) = .ok version := by
  have hversion : version ∈ ["1", "2c", "3"] := by
    unfold versionValidator InventoryRecord.versionValidator at h
    split at h
    · split at h
      · cases h
        decide
      · split_ifs at h with hblank hmem
        · cases h
          decide
        · cases h
          exact hmem
      · cases h
    · cases h
    · cases h
  simp only [List.mem_cons, List.not_mem_nil, or_false] at hversion
  rcases hversion with rfl | rfl | rfl <;> rfl

theorem walkIntervalValidator_range {v : Keyword ω} {interval : ℤ}
    (h : walkIntervalValidator v = .ok interval) : 1800 ≤ interval ∧ interval ≤ 604800 := by
  rw [walkIntervalValidator] at h
  split at h
  · cases h
    decide
  · obtain ⟨value, -, h⟩ := PyError.bind_eq_ok.mp h
    cases h
    split_ifs <;> omega

/-- An interval is read back when it is in range. -/
theorem walkIntervalValidator_int (interval : ℤ) :
    walkIntervalValidator (scalar (.int interval) : Keyword ω) = .ok interval ↔
      1800 ≤ interval ∧ interval ≤ 604800 := by
  constructor
  · exact walkIntervalValidator_range
  · intro hrange
    have htruthy : (scalar (.int interval) : Keyword ω).truthy = true := by
      simp only [Keyword.truthy, PyVal.truthy_int, decide_eq_true_eq]
      omega
    rw [walkIntervalValidator, htruthy]
    change Except.ok (if interval < 1800 then 1800 else if 604800 < interval then 604800
      else interval) = _
    rw [if_neg (by omega), if_neg (by omega)]

theorem maxOidToProcessValidator_again {v : Keyword ω} {count : Option ℤ}
    (h : maxOidToProcessValidator v = .ok count) :
    maxOidToProcessValidator (ofInt? count : Keyword ω) = .ok count := by
  rw [maxOidToProcessValidator] at h
  split at h
  · cases h
    rfl
  · obtain ⟨value, -, h⟩ := PyError.bind_eq_ok.mp h
    cases h
    split_ifs with hvalue
    · rfl
    · change Except.ok (if value < 1 then none else some value) = _
      rw [if_neg hvalue]

/-- A value that is not blank is read as a text, which is blank for octets only. -/
theorem exists_of_toText {v : Keyword ω} {t : Option String} (hblank : v.isBlank = false)
    (h : v.toText = .ok t) : ∃ s, t = some s ∧ Text.isBlank s = v.isBlankOctets := by
  cases v with
  | scalar v =>
    cases v with
    | none => cases hblank
    | bool b =>
      refine ⟨_, (Except.ok.inj h).symm, ?_⟩
      cases b <;> rfl
    | int i => exact ⟨_, (Except.ok.inj h).symm, Text.isBlank_toString i⟩
    | str s => exact ⟨_, (Except.ok.inj h).symm, hblank⟩
  | number x => exact ⟨_, (Except.ok.inj h).symm, x.isBlank_text⟩
  | octets bytes =>
    rw [toText] at h
    rw [isBlankOctets]
    cases hdecode : decode bytes with
    | none =>
      rw [hdecode] at h
      cases h
    | some s =>
      rw [hdecode] at h
      exact ⟨s, (Except.ok.inj h).symm, rfl⟩
  | sequence elements => cases h
  | object truthy toInt => cases h

theorem isBlankOctets_of_isBlank {v : Keyword ω} (h : v.isBlank = true) :
    v.isBlankOctets = false := by
  cases v with
  | octets bytes => cases h
  | _ => rfl

/-- A field of text whose validator puts a value in the place of a blank one: it is read back when
it does not come from blank octets, if the value put there is. -/
theorem orElse_again_iff {d v : Keyword ω} {t : Option String}
    (hd : ∀ t, d.toText = .ok t →
      (if (ofText? t : Keyword ω).isBlank then d else ofText? t).toText = .ok t)
    (hblank : ∀ s, Text.isBlank s = true → d.toText ≠ .ok (some s))
    (h : (if v.isBlank then d else v).toText = .ok t) :
    (if (ofText? t : Keyword ω).isBlank then d else ofText? t).toText = .ok t ↔
      v.isBlankOctets = false := by
  cases hv : v.isBlank with
  | true =>
    rw [if_pos hv] at h
    exact iff_of_true (hd t h) (isBlankOctets_of_isBlank hv)
  | false =>
    rw [if_neg (by simp [hv])] at h
    obtain ⟨s, rfl, hs⟩ := exists_of_toText hv h
    rw [← hs]
    change (if Text.isBlank s then d else scalar (.str s)).toText = _ ↔ _
    cases hsblank : Text.isBlank s with
    | true => exact iff_of_false (hblank s hsblank) nofun
    | false => exact iff_of_true rfl rfl

/-- The text of a field is read back when it does not come from blank octets. -/
theorem textValidator_again_iff {v : Keyword ω} {t : Option String}
    (h : (textValidator v).toText = .ok t) :
    (textValidator (ofText? t : Keyword ω)).toText = .ok t ↔ v.isBlankOctets = false := by
  refine orElse_again_iff (fun t ht => ?_) (fun s _ => nofun) h
  cases ht
  rfl

/-- A group is a text, and is read back when it does not come from blank octets. -/
theorem groupValidator_again_iff {v : Keyword ω} {t : Option String}
    (h : (groupValidator v).toText = .ok t) :
    (groupValidator (ofText? t : Keyword ω)).toText = .ok t ↔ v.isBlankOctets = false := by
  refine orElse_again_iff (fun t ht => ?_) (fun s hs hfalse => ?_) h
  · cases ht
    rfl
  · -- a blank group is read as `False`, which is not blank
    cases hfalse
    exact absurd hs (by decide)

end Keyword

/-! ### Fields that are read again -/

namespace Keywords

/-- The fields with a default their validator does not keep are given, and no text is given as
blank octets. -/
structure Settled (kwargs : Keywords ω) : Prop where
  given : ∀ field ∈ ["address", "version", "security_engine", "smart_profiles", "delete", "group"],
    (kwargs.given? field).isSome
  legible : ∀ field ∈ ["community", "secret", "security_engine", "group"],
    ∀ v, kwargs.given? field = some v → v.isBlankOctets = false

/-- A field is read back when its value or its default is. -/
theorem validated_again_iff {α : Type} {kwargs : Keywords ω} {field : String} {default x : α}
    {validator : Keyword ω → Except PyError α} (dump : α → Keyword ω) {P : Keyword ω → Prop}
    {Q : Prop} (h : kwargs.validated field default validator = .ok x)
    (hvalue : ∀ v y, validator v = .ok y → (validator (dump y) = .ok y ↔ P v))
    (hdefault : validator (dump default) = .ok default ↔ Q) :
    validator (dump x) = .ok x ↔
      (∀ v, kwargs.given? field = some v → P v) ∧ (kwargs.given? field = none → Q) := by
  rw [validated] at h
  cases hgiven : kwargs.given? field with
  | none =>
    rw [hgiven] at h
    cases h
    simpa using hdefault
  | some v =>
    rw [hgiven] at h
    simpa using hvalue v x h

/-- A field whose default is kept is read back. -/
theorem validated_again {α : Type} {kwargs : Keywords ω} {field : String} {default x : α}
    {validator : Keyword ω → Except PyError α} (dump : α → Keyword ω)
    (h : kwargs.validated field default validator = .ok x)
    (hvalue : ∀ v y, validator v = .ok y → validator (dump y) = .ok y)
    (hdefault : validator (dump default) = .ok default) : validator (dump x) = .ok x :=
  (validated_again_iff dump h (P := fun _ => True) (Q := True)
    (fun v y hv => iff_true_intro (hvalue v y hv)) (iff_true_intro hdefault)).mpr
    ⟨fun _ _ => trivial, fun _ => trivial⟩

/-- A field whose default is not kept is read back when it was given. -/
theorem validated_some_again_iff {α : Type} {kwargs : Keywords ω} {field : String} {x : Option α}
    {validator : Keyword ω → Except PyError α} (dump : Option α → Keyword ω)
    (h : kwargs.validated field none (fun v => some <$> validator v) = .ok x)
    (hvalue : ∀ v y, validator v = .ok y → validator (dump (some y)) = .ok y) :
    some <$> validator (dump x) = .ok x ↔ (kwargs.given? field).isSome := by
  have hmap : ∀ (w : Except PyError α) (y : Option α),
      some <$> w = .ok y ↔ ∃ a, w = .ok a ∧ y = some a := by
    intro w y
    cases w <;> simp [Functor.map, Except.map, eq_comm]
  refine (validated_again_iff dump h (P := fun _ => True) (Q := False) ?_ ?_).trans ?_
  · intro v y hv
    obtain ⟨a, ha, rfl⟩ := (hmap _ _).mp hv
    exact iff_true_intro ((hmap _ _).mpr ⟨a, hvalue v a ha, rfl⟩)
  · refine iff_false_intro fun hnone => ?_
    obtain ⟨a, -, hsome⟩ := (hmap _ _).mp hnone
    cases hsome
  · cases kwargs.given? field <;> simp

end Keywords

/-! ### Records that are built again -/

namespace KeywordRecord

variable {lookup : AddressLookup} {text : String → ω} {kwargs : Keywords ω} {r : KeywordRecord ω}

/-- A record is built again from its fields when they are read back. -/
theorem ofKeywords_asdict_eq_ok_iff (r : KeywordRecord ω) :
    ofKeywords lookup text r.asdict = .ok r ↔ ReadFrom lookup text r.asdict r := by
  rw [ofKeywords_eq_ok_iff, and_iff_right (self_notMem_asdict r)]

/-- The port of a record is read back. -/
theorem ReadFrom.port_again (h : ReadFrom lookup text kwargs r) :
    portValidator (scalar (.int r.port) : Keyword ω) = .ok r.port :=
  validated_again (fun port => scalar (.int port)) h.port (fun _ _ => portValidator_again) rfl

/-- So is its walk interval. -/
theorem ReadFrom.walkInterval_again (h : ReadFrom lookup text kwargs r) :
    walkIntervalValidator (scalar (.int r.walkInterval) : Keyword ω) = .ok r.walkInterval :=
  validated_again (fun interval => scalar (.int interval)) h.walkInterval
    (fun _ _ hv => (walkIntervalValidator_int _).mpr (walkIntervalValidator_range hv)) rfl

/-- The fields of a record are read back when they were settled. -/
theorem readFrom_asdict_iff (h : ReadFrom lookup text kwargs r) :
    ReadFrom lookup text r.asdict r ↔ kwargs.Settled := by
  have hmax := validated_again ofInt? h.maxOidToProcess
    (fun _ _ => maxOidToProcessValidator_again) rfl
  have haddress := validated_some_again_iff ofText? h.address fun _ _ => addressValidator_again
  have hversion := validated_some_again_iff ofText? h.version fun _ _ => versionValidator_again
  have hsmart := validated_some_again_iff ofBool? h.smartProfiles fun _ _ _ => rfl
  have hdelete := validated_some_again_iff ofBool? h.delete fun _ _ _ => rfl
  have hcommunity := validated_again_iff ofText? h.community (fun _ _ => textValidator_again_iff)
    (iff_true_intro rfl)
  have hsecret := validated_again_iff ofText? h.secret (fun _ _ => textValidator_again_iff)
    (iff_true_intro rfl)
  -- the default of an engine is empty, and read as none
  have hengine := validated_again_iff ofText? h.securityEngine (fun _ _ => textValidator_again_iff)
    (iff_false_intro nofun)
  -- the default of a group is none, and read as one
  have hgroup := validated_again_iff ofText? h.group (fun _ _ => groupValidator_again_iff)
    (iff_false_intro nofun)
  have hgiven : ∀ field, (kwargs.given? field = none → False) ↔ (kwargs.given? field).isSome := by
    intro field
    cases kwargs.given? field <;> simp
  rw [hgiven] at hengine hgroup
  constructor
  · intro hagain
    have hengine := hengine.mp hagain.securityEngine
    have hgroup := hgroup.mp hagain.group
    refine ⟨?_, ?_⟩
    · simp only [List.forall_mem_cons, List.not_mem_nil, false_implies, implies_true, and_true]
      exact ⟨haddress.mp hagain.address, hversion.mp hagain.version, hengine.2,
        hsmart.mp hagain.smartProfiles, hdelete.mp hagain.delete, hgroup.2⟩
    · simp only [List.forall_mem_cons, List.not_mem_nil, false_implies, implies_true, and_true]
      exact ⟨(hcommunity.mp hagain.community).1, (hsecret.mp hagain.secret).1, hengine.1, hgroup.1⟩
  · intro hsettled
    obtain ⟨hgiven, hlegible⟩ := hsettled
    simp only [List.forall_mem_cons, List.not_mem_nil, false_implies, implies_true, and_true]
      at hgiven hlegible
    obtain ⟨hgivenAddress, hgivenVersion, hgivenEngine, hgivenSmart, hgivenDelete, hgivenGroup⟩ :=
      hgiven
    obtain ⟨hlegibleCommunity, hlegibleSecret, hlegibleEngine, hlegibleGroup⟩ := hlegible
    exact {
      port := h.port_again
      address := haddress.mpr hgivenAddress
      version := hversion.mpr hgivenVersion
      community := hcommunity.mpr ⟨hlegibleCommunity, fun _ => trivial⟩
      secret := hsecret.mpr ⟨hlegibleSecret, fun _ => trivial⟩
      securityEngine := hengine.mpr ⟨hlegibleEngine, hgivenEngine⟩
      walkInterval := h.walkInterval_again
      maxOidToProcess := hmax
      profiles := rfl
      smartProfiles := hsmart.mpr hgivenSmart
      delete := hdelete.mpr hgivenDelete
      group := hgroup.mpr ⟨hlegibleGroup, hgivenGroup⟩ }

/-- With another walk interval, they are when that is in range. -/
theorem readFrom_asdict_walkInterval_iff (h : ReadFrom lookup text kwargs r) (interval : ℤ) :
    ReadFrom lookup text { r with walkInterval := interval }.asdict
      { r with walkInterval := interval } ↔
      kwargs.Settled ∧ 1800 ≤ interval ∧ interval ≤ 604800 := by
  rw [← readFrom_asdict_iff h, ← walkIntervalValidator_int (ω := ω)]
  constructor
  · intro hagain
    exact ⟨{ hagain with walkInterval := h.walkInterval_again }, hagain.walkInterval⟩
  · rintro ⟨hagain, hinterval⟩
    exact { hagain with walkInterval := hinterval }

end KeywordRecord

/-! ### The documents of the inventory -/

/-- The inventory collection, by address and port.  A document holds the fields of a record:
`$set` writes all of them. -/
abbrev InventoryDocuments (ω : Type) := Dict (Option String × ℤ) (KeywordRecord ω)

/-- The fields `update_one` finds the document of a record by. -/
def KeywordRecord.docKey (r : KeywordRecord ω) : Option String × ℤ := (r.address, r.port)

/-- `get_inventory`. -/
def getInventory (lookup : AddressLookup) (text : String → ω) (inventory : InventoryDocuments ω)
    (address : String) : Except PyError (KeywordRecord ω) := do
  let (host, port) ← returnAddressAndPort address
  match inventory.get? (some host, port) with
  | none => .error .valueError
  | some document => KeywordRecord.ofKeywords lookup text document.asdict

namespace KeywordRecord

variable {lookup : AddressLookup} {text : String → ω} {kwargs : Keywords ω} {r : KeywordRecord ω}

/-- The pollers build the record of a target from its document. -/
theorem getInventory_insert {address target : String} (inventory : InventoryDocuments ω)
    (hport : 1 ≤ r.port ∧ r.port ≤ 65535) (haddress : r.address = some address)
    (htarget : transformAddressToKey (.str address) (.int r.port) = .ok target) :
    getInventory lookup text (inventory.insert r.docKey r) target =
      ofKeywords lookup text r.asdict := by
  have hkey : target = recordKey (address, r.port) := by
    have hrecord := @transformAddressToKey_recordKey (address, r.port) hport
    exact Except.ok.inj (htarget.symm.trans hrecord)
  have hread := @returnAddressAndPort_recordKey (address, r.port) hport
  have hdoc : (inventory.insert r.docKey r).get? (some address, r.port) = some r := by
    rw [Dict.get?_insert, if_pos (by rw [docKey, haddress])]
  rw [getInventory, hkey, hread]
  change (match (inventory.insert r.docKey r).get? (some address, r.port) with
    | none => Except.error PyError.valueError
    | some document => ofKeywords lookup text document.asdict) = _
  rw [hdoc]

/-- A record is built again from its fields exactly when the keyword arguments it was built from
were settled.  The pollers build the record the loader has stored, if the loader has put no
interval in it that is out of range. -/
theorem ofKeywords_asdict (h : ofKeywords lookup text kwargs = .ok r) :
    (ofKeywords lookup text r.asdict = .ok r ↔ kwargs.Settled) ∧
    ∀ (inventory : InventoryDocuments ω) (interval : ℤ) (address target : String),
      r.address = some address →
      transformAddressToKey (.str address) (.int r.port) = .ok target →
      (getInventory lookup text
          (inventory.insert r.docKey { r with walkInterval := interval }) target =
        .ok { r with walkInterval := interval } ↔
        kwargs.Settled ∧ 1800 ≤ interval ∧ interval ≤ 604800) := by
  have hread := (ofKeywords_eq_ok_iff.mp h).2
  constructor
  · rw [ofKeywords_asdict_eq_ok_iff, readFrom_asdict_iff hread]
  · intro inventory interval address target haddress htarget
    have hport := portValidator_range hread.port_again
    have hinsert := @getInventory_insert ω lookup text { r with walkInterval := interval } address
      target inventory hport haddress htarget
    rw [← readFrom_asdict_walkInterval_iff hread, ← ofKeywords_asdict_eq_ok_iff, ← hinsert]
    rfl

/-- A line for a host of a group. -/
def groupLine : Keywords String :=
  Dict.ofList [("address", scalar (.str "10.0.0.1")), ("port", scalar (.str "")),
    ("version", scalar (.str "2c")), ("community", scalar (.str "public")),
    ("secret", scalar (.str "")), ("security_engine", scalar (.str "")),
    ("walk_interval", scalar (.str "2000")), ("profiles", scalar (.str "router")),
    ("smart_profiles", scalar (.str "")), ("delete", scalar (.str "")),
    ("group", scalar (.str "routers"))]

/-- Its record. -/
def groupRecord : KeywordRecord String where
  port := 161
  address := some "10.0.0.1"
  version := some "2c"
  community := some "public"
  secret := none
  securityEngine := none
  walkInterval := 2000
  maxOidToProcess := none
  profiles := ["router"]
  smartProfiles := some true
  delete := some false
  group := some "routers"

/-- Every address is one. -/
def anyAddress : AddressLookup := ⟨fun _ => true, fun _ _ => true⟩

theorem ofKeywords_groupLine : ofKeywords anyAddress id groupLine = .ok groupRecord := by
  decide +kernel

theorem groupLine_settled : groupLine.Settled := by
  have hlegible : ∀ field ∈ ["community", "secret", "security_engine", "group"],
      (groupLine.given? field).all (fun v => !v.isBlankOctets) = true := by
    decide
  refine ⟨by decide, fun field hfield v hv => ?_⟩
  simpa [hv] using hlegible field hfield

/-- The record of a host of a group is built again. -/
theorem ofKeywords_asdict_groupLine :
    ofKeywords anyAddress id groupLine = .ok groupRecord ∧
    ofKeywords anyAddress id groupRecord.asdict = .ok groupRecord ∧
    getInventory anyAddress id (Dict.empty.insert groupRecord.docKey groupRecord) "10.0.0.1:161" =
      .ok groupRecord :=
  ⟨ofKeywords_groupLine, (ofKeywords_asdict ofKeywords_groupLine).1.mpr groupLine_settled,
    ((ofKeywords_asdict ofKeywords_groupLine).2 Dict.empty 2000 "10.0.0.1" "10.0.0.1:161" rfl
      rfl).mpr ⟨groupLine_settled, by decide, by decide⟩⟩

/-- The record of a host of no group is not: it is read back with the group `False`. -/
theorem ofKeywords_asdict_fails :
    ¬ ∀ (lookup : AddressLookup) (text : String → String) (kwargs : Keywords String)
      (r : KeywordRecord String), ofKeywords lookup text kwargs = .ok r →
      ofKeywords lookup text r.asdict = .ok r := by
  intro hall
  have hagain := hall anyAddress id (groupLine.erase "group") { groupRecord with group := none }
    (by decide +kernel)
  have hfalse : ofKeywords anyAddress id { groupRecord with group := none }.asdict =
      .ok { groupRecord with group := some "False" } := by
    decide +kernel
  rw [hfalse] at hagain
  exact absurd (Except.ok.inj hagain) (by decide)

end KeywordRecord

end Sc4snmp
