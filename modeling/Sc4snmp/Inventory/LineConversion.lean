import Sc4snmp.Common.GroupExpansion
import Sc4snmp.Inventory.UiMigration

/-!
# What a converted line means

The migration to the UI copies a line of the inventory with its columns converted.  What the
loader reads from the copy should be what it reads from the line: the hosts of a group, the
record, and the settings of its walk.

The conversion changes the meaning where its default is not the one of the record (a blank
`smart_profiles` counts as true in the file and is copied as false), where a limit is applied
to a column that the code also reads without (the walk interval of a partial walk), and where
a text that is not the plain numeral of its port becomes the number.

## Main definitions

* `Alike` — the columns of two lines say the same to the loader.
* `Portable` — a line whose meaning the conversion keeps.

## Main results

* `Alike.ofSource_eq`, `Alike.update_eq`, `Alike.hostGroupObject` — lines that are alike are the
  same record, with the same walk, and so are their hosts.
* `alike_of_convertLine` — **a portable line and the row it is copied to are alike**.
* `smartProfiles_convertLine_of_blank` — what becomes of a blank column.
-/

namespace Sc4snmp

open UiMigration

/-! ### Lines that say the same -/

/-- Ports that give the same keys and the same records. -/
structure PortsAlike (port port' : PyVal) : Prop where
  key : ∀ address, transformAddressToKey address port' = transformAddressToKey address port
  record : InventoryRecord.portValidator port' = InventoryRecord.portValidator port

/-- The columns that the conversion leaves as they are. -/
def keptColumns : List String :=
  ["self", "address", "version", "community", "secret", "profiles", "group"]

/-- The loader reads the same from the row as from the line: whether it makes full walks, and
whether a host of a group has a security engine of its own, decides what it reads. -/
structure Alike (fullWalk ownEngines : Bool) (line row : SourceRecord) : Prop where
  restKey : row.restKey = line.restKey
  kept : ∀ key ∈ keptColumns, row.columns.get? key = line.columns.get? key
  engine : row.columns.get? "security_engine" =
    (line.columns.get? "securityEngine").or (line.columns.get? "security_engine")
  rowEngine : row.columns.get? "securityEngine" = none
  lineEngine : ownEngines = true → line.columns.get? "securityEngine" = none
  port : ∃ port port', line.columns.get? "port" = some port ∧
    row.columns.get? "port" = some port' ∧ PortsAlike port port'
  walkInterval : ∃ raw raw', line.columns.get? "walk_interval" = some raw ∧
    row.columns.get? "walk_interval" = some raw' ∧
    InventoryRecord.walkIntervalValidator raw' = InventoryRecord.walkIntervalValidator raw ∧
    (fullWalk = true ∨ raw'.toInt = raw.toInt)
  maxOid : InventoryRecord.validated row "max_oid_to_process" none
      InventoryRecord.maxOidToProcessValidator =
    InventoryRecord.validated line "max_oid_to_process" none
      InventoryRecord.maxOidToProcessValidator
  smartProfiles : ∃ raw flag, (line.columns.get? "SmartProfiles").or
      (line.columns.get? "smart_profiles") = some raw ∧
    InventoryRecord.smartProfilesValidator raw = .ok flag ∧
    row.columns.get? "SmartProfiles" = none ∧
    row.columns.get? "smart_profiles" = some (.bool flag)
  delete : ∃ raw flag, line.columns.get? "delete" = some raw ∧
    InventoryRecord.deleteValidator raw = .ok flag ∧
    row.columns.get? "delete" = some (.bool flag)

namespace InventoryRecord

/-- One of the alternatives. -/
def renameField (line : SourceRecord) (old current : String) : SourceRecord :=
  match line.columns.get? old with
  | some v => { line with columns := (line.columns.insert current v).erase old }
  | none => line

theorem renameAlternatives_eq (line : SourceRecord) : renameAlternatives line =
    renameField (renameField line "securityEngine" "security_engine") "SmartProfiles"
      "smart_profiles" := rfl

theorem get?_renameField {line : SourceRecord} {old current : String} (key : String) :
    (renameField line old current).columns.get? key =
      if key = old then none
      else if key = current then (line.columns.get? old).or (line.columns.get? key)
      else line.columns.get? key := by
  unfold renameField
  cases hold : line.columns.get? old with
  | none =>
    by_cases hkey : key = old
    · rw [if_pos hkey, hkey]
      exact hold
    · rw [if_neg hkey, Option.none_or, ite_self]
  | some v => rw [Dict.get?_erase, Dict.get?_insert, Option.some_or]

/-- A column under its old name counts before the one under the current name. -/
theorem get?_renameAlternatives_current (line : SourceRecord) :
    (renameAlternatives line).columns.get? "security_engine" =
        (line.columns.get? "securityEngine").or (line.columns.get? "security_engine") ∧
      (renameAlternatives line).columns.get? "smart_profiles" =
        (line.columns.get? "SmartProfiles").or (line.columns.get? "smart_profiles") := by
  rw [renameAlternatives_eq]
  constructor <;> simp [get?_renameField]

variable {lookup : AddressLookup} {line row : SourceRecord}

theorem validated_congr {α : Type} {key key' : String} {default : α}
    {validator : PyVal → Except PyError α}
    (h : row.columns.get? key = line.columns.get? key') :
    validated row key default validator = validated line key' default validator := by
  rw [validated, validated, h]

end InventoryRecord

namespace Alike

variable {fullWalk ownEngines : Bool} {line row : SourceRecord}

theorem get?_rename (h : Alike fullWalk ownEngines line row) {key : String}
    (hkey : key ∈ keptColumns) : (InventoryRecord.renameAlternatives row).columns.get? key =
      (InventoryRecord.renameAlternatives line).columns.get? key := by
  have hnot : ∀ key ∈ keptColumns,
      key ∉ ["securityEngine", "security_engine", "SmartProfiles", "smart_profiles"] := by decide
  rw [InventoryRecord.get?_renameAlternatives (hnot key hkey),
    InventoryRecord.get?_renameAlternatives (hnot key hkey)]
  exact h.kept key hkey

open InventoryRecord in
/-- The row is the record that the line is. -/
theorem ofSource_eq (h : Alike fullWalk ownEngines line row) (lookup : AddressLookup) :
    ofSource lookup row = ofSource lookup line := by
  have hself : "self" ∈ row.columns ↔ "self" ∈ line.columns := by
    have heq := h.kept "self" (by decide)
    exact (Dict.isSome_get?_iff.symm.trans (by rw [heq])).trans Dict.isSome_get?_iff
  have hkept : ∀ {α : Type} {key : String} (default : α) (validator : PyVal → Except PyError α),
      key ∈ keptColumns → validated (renameAlternatives row) key default validator =
        validated (renameAlternatives line) key default validator :=
    fun _ _ hkey => validated_congr (h.get?_rename hkey)
  have hport : validated (renameAlternatives row) "port" 161 portValidator =
      validated (renameAlternatives line) "port" 161 portValidator := by
    obtain ⟨port, port', hline, hrow, halike⟩ := h.port
    rw [validated, validated, get?_renameAlternatives (by decide),
      get?_renameAlternatives (by decide), hline, hrow]
    exact halike.record
  have hengine : validated (renameAlternatives row) "security_engine" (some "")
      (fun v => .ok (textValidator v)) = validated (renameAlternatives line) "security_engine"
        (some "") fun v => .ok (textValidator v) := by
    refine validated_congr ?_
    rw [(get?_renameAlternatives_current _).1, (get?_renameAlternatives_current _).1, h.engine,
      h.rowEngine, Option.none_or]
  have hwalk : validated (renameAlternatives row) "walk_interval" 42000 walkIntervalValidator =
      validated (renameAlternatives line) "walk_interval" 42000 walkIntervalValidator := by
    obtain ⟨raw, raw', hline, hrow, halike, -⟩ := h.walkInterval
    rw [validated, validated, get?_renameAlternatives (by decide),
      get?_renameAlternatives (by decide), hline, hrow]
    exact halike
  have hmax : validated (renameAlternatives row) "max_oid_to_process" none
      maxOidToProcessValidator = validated (renameAlternatives line) "max_oid_to_process" none
        maxOidToProcessValidator := by
    have halike := h.maxOid
    rw [validated, validated] at halike ⊢
    rwa [get?_renameAlternatives (by decide), get?_renameAlternatives (by decide)]
  have hprofiles : (renameAlternatives row).getItem "profiles" =
      (renameAlternatives line).getItem "profiles" := by
    rw [SourceRecord.getItem, SourceRecord.getItem, h.get?_rename (by decide)]
  have hsmart : validated (renameAlternatives row) "smart_profiles" none
      (fun v => some <$> smartProfilesValidator v) =
        validated (renameAlternatives line) "smart_profiles" none
          fun v => some <$> smartProfilesValidator v := by
    obtain ⟨raw, flag, hline, hraw, hold, hrow⟩ := h.smartProfiles
    rw [validated, validated, (get?_renameAlternatives_current _).2,
      (get?_renameAlternatives_current _).2, hline, hold, hrow, Option.none_or]
    simp only [hraw]
    rfl
  have hdelete : validated (renameAlternatives row) "delete" none
      (fun v => some <$> deleteValidator v) = validated (renameAlternatives line) "delete" none
        fun v => some <$> deleteValidator v := by
    obtain ⟨raw, flag, hline, hraw, hrow⟩ := h.delete
    rw [validated, validated, get?_renameAlternatives (by decide),
      get?_renameAlternatives (by decide), hline, hrow]
    simp only [hraw]
    rfl
  simp only [ofSource, h.restKey, hself, hport, hkept none _ (by decide : "address" ∈ keptColumns),
    hkept none _ (by decide : "version" ∈ keptColumns),
    hkept none _ (by decide : "community" ∈ keptColumns),
    hkept none _ (by decide : "secret" ∈ keptColumns), hengine, hwalk, hmax, hprofiles, hsmart,
    hdelete, hkept none _ (by decide : "group" ∈ keptColumns)]

/-- The walk of the row is the walk of the line. -/
theorem walkSettings_eq (h : Alike fullWalk ownEngines line row) {cfg : LoadConfig}
    (hfull : cfg.enableFullWalk = fullWalk) (ir : InventoryRecord) :
    InventoryRecordManager.walkSettings cfg ir row =
      InventoryRecordManager.walkSettings cfg ir line := by
  have hprofiles : row.getItem "profiles" = line.getItem "profiles" := by
    rw [SourceRecord.getItem, SourceRecord.getItem, h.kept "profiles" (by decide)]
  obtain ⟨raw, raw', hline, hrow, -, hint⟩ := h.walkInterval
  have hitem : line.getItem "walk_interval" = .ok raw := SourceRecord.getItem_eq_ok_iff.mpr hline
  have hitem' : row.getItem "walk_interval" = .ok raw' := SourceRecord.getItem_eq_ok_iff.mpr hrow
  unfold InventoryRecordManager.walkSettings
  rw [hprofiles, hitem, hitem']
  rcases hint with hfullWalk | hint
  · -- a full walk does not read the interval of the line again
    have hnone : ∀ profiles, returnWalkProfile cfg profiles = none := by
      intro profiles
      rw [returnWalkProfile, if_pos (hfull.trans hfullWalk)]
    simp only [hnone, Option.isSome_none, Bool.false_eq_true, if_false]
  · simp only [bind, Except.bind, hint]

theorem update_eq (h : Alike fullWalk ownEngines line row) {cfg : LoadConfig}
    (hfull : cfg.enableFullWalk = fullWalk) (expiryTimeChanged : Bool) (db : InventoryDb)
    (ir : InventoryRecord) :
    InventoryRecordManager.update cfg expiryTimeChanged db ir row =
      InventoryRecordManager.update cfg expiryTimeChanged db ir line := by
  have hgroup : row.get "group" = line.get "group" := by
    rw [SourceRecord.get, SourceRecord.get, Dict.getD, Dict.getD, h.kept "group" (by decide)]
  simp only [InventoryRecordManager.update, h.walkSettings_eq hfull, hgroup]

end Alike

/-! ### Hosts of groups -/

namespace GroupObject

/-- The keys a host of a group can have. -/
def hostKeys : List String :=
  ["address", "port", "community", "secret", "version", "security_engine", "max_oid_to_process"]

theorem sublist_items (o : GroupObject) : (o.items.map Prod.fst).Sublist hostKeys := by
  have hoption : ∀ {α : Type} (key : String) (f : α → PyVal) (v : Option α),
      ((v.map fun x => (key, f x)).toList.map Prod.fst).Sublist [key] := by
    intro α key f v
    cases v with
    | none => exact List.nil_sublist _
    | some x => exact List.Sublist.refl _
  simp only [items, List.map_append]
  exact ((((((List.Sublist.refl ["address"]).append (hoption "port" _ _)).append
    (hoption "community" _ _)).append (hoption "secret" _ _)).append
    (hoption "version" _ _)).append (hoption "security_engine" _ _)).append
    (hoption "max_oid_to_process" _ _)

theorem nodup_items (o : GroupObject) : (o.items.map Prod.fst).Nodup :=
  o.sublist_items.nodup (by decide)

theorem lookup_items_eq_none {o : GroupObject} {key : String} (h : key ∉ hostKeys) :
    o.items.lookup key = none := by
  rw [List.lookup_eq_none_iff]
  intro item hitem
  rw [bne_iff_ne]
  intro heq
  exact h (o.sublist_items.subset (List.mem_map.mpr ⟨item, hitem, heq.symm⟩))

theorem lookup_items_securityEngine (o : GroupObject) :
    o.items.lookup "security_engine" = o.securityEngine.map PyVal.str := by
  have hoption : ∀ {α : Type} (key : String) (f : α → PyVal) (v : Option α),
      (v.map fun x => (key, f x)).toList.lookup "security_engine" =
        if "security_engine" = key then v.map f else none := by
    intro α key f v
    cases v with
    | none => simp
    | some x => simp [Dict.lookup_cons_ite]
  simp [items, List.lookup_append, hoption, Dict.lookup_cons_ite]

end GroupObject

theorem get?_hostGroupObject (source : SourceRecord) (groupName : String) (o : GroupObject)
    (key : String) : (hostGroupObject source groupName o).columns.get? key =
      if key = "group" then some (.str groupName)
      else (o.items.lookup key).or (source.columns.get? key) := by
  rw [columns_hostGroupObject, Dict.get?_insert, Dict.get?_updateList _ _ o.nodup_items]

theorem restKey_hostGroupObject (source : SourceRecord) (groupName : String) (o : GroupObject) :
    (hostGroupObject source groupName o).restKey = source.restKey := by
  have hset : ∀ (items : List (String × PyVal)) (line : SourceRecord),
      (items.foldl (fun line item => line.set item.1 item.2) line).restKey = line.restKey := by
    intro items
    induction items with
    | nil => exact fun _ => rfl
    | cons item items ih => exact fun line => ih (line.set item.1 item.2)
  exact hset _ _

theorem PortsAlike.refl (port : PyVal) : PortsAlike port port := ⟨fun _ => rfl, rfl⟩

namespace Alike

variable {fullWalk ownEngines : Bool} {line row : SourceRecord}

/-- The lines of a host of a group are alike. -/
theorem hostGroupObject (h : Alike fullWalk ownEngines line row) (groupName : String)
    {o : GroupObject} (hengine : o.securityEngine.isSome = true → ownEngines = true) :
    Alike fullWalk ownEngines (hostGroupObject line groupName o)
      (hostGroupObject row groupName o) := by
  have hown : ∀ source : SourceRecord, ∀ key, key ≠ "group" → key ∉ GroupObject.hostKeys →
      (Sc4snmp.hostGroupObject source groupName o).columns.get? key = source.columns.get? key := by
    intro source key hgroup hkey
    rw [get?_hostGroupObject, if_neg hgroup, GroupObject.lookup_items_eq_none hkey, Option.none_or]
  refine ⟨?_, ?_, ?_, ?_, ?_, ?_, ?_, ?_, ?_, ?_⟩
  · rw [restKey_hostGroupObject, restKey_hostGroupObject, h.restKey]
  · intro key hkey
    rw [get?_hostGroupObject, get?_hostGroupObject, h.kept key hkey]
  · rw [get?_hostGroupObject, if_neg (by decide), hown _ _ (by decide) (by decide),
      get?_hostGroupObject, if_neg (by decide), GroupObject.lookup_items_securityEngine]
    cases hown : o.securityEngine with
    | none => exact h.engine
    | some engine =>
      rw [h.lineEngine (hengine (by rw [hown]; rfl))]
      rfl
  · rw [hown _ _ (by decide) (by decide)]
    exact h.rowEngine
  · rw [hown _ _ (by decide) (by decide)]
    exact h.lineEngine
  · rw [get?_hostGroupObject_port, get?_hostGroupObject_port]
    cases o.port with
    | none => exact h.port
    | some port => exact ⟨_, _, rfl, rfl, PortsAlike.refl _⟩
  · rw [hown _ _ (by decide) (by decide), hown _ _ (by decide) (by decide)]
    exact h.walkInterval
  · have hmax := h.maxOid
    rw [InventoryRecord.validated, InventoryRecord.validated] at hmax ⊢
    rw [get?_hostGroupObject, get?_hostGroupObject, if_neg (by decide), if_neg (by decide)]
    cases o.items.lookup "max_oid_to_process" with
    | none => exact hmax
    | some limit => rfl
  · rw [hown _ _ (by decide) (by decide), hown _ _ (by decide) (by decide),
      hown _ _ (by decide) (by decide), hown _ _ (by decide) (by decide)]
    exact h.smartProfiles
  · rw [hown _ _ (by decide) (by decide), hown _ _ (by decide) (by decide)]
    exact h.delete

end Alike

/-! ### The conversion of a line -/

/-- The meaning of the line stays when it is converted. -/
structure Portable (fullWalk ownEngines : Bool) (line : SourceRecord) : Prop where
  /-- A port that is given is the plain numeral of its number. -/
  port : ∃ port, line.columns.get? "port" = some port ∧
    (port = .none ∨ port = .str "" ∨ ∃ n : ℤ, n ≠ 0 ∧ port = .str (toString n))
  /-- Half an hour is the least interval the conversion knows. -/
  walkInterval : ∃ text, line.columns.get? "walk_interval" = some (.str text) ∧
    (fullWalk = true ∨ ∀ n, (PyVal.str text).toInt = .ok n → 1800 ≤ n)
  /-- A blank column is true for a record, and false for the conversion. -/
  smartProfiles : ∀ raw, (line.columns.get? "SmartProfiles").or
    (line.columns.get? "smart_profiles") = some raw → raw.isBlank = false
  /-- The old name of the column hides the engine of a host of a group. -/
  engine : ownEngines = true → line.columns.get? "securityEngine" = none

/-- A text of white space is none of the words for true. -/
theorem humanBool_of_isBlank {raw : PyVal} {flag : Bool} (hblank : raw.isBlank = true)
    (h : humanBool raw = .ok flag) : flag = false := by
  cases raw with
  | none =>
    cases h
    rfl
  | bool b => cases hblank
  | int i => cases hblank
  | str s =>
    cases h
    rw [decide_eq_false_iff_not]
    intro hword
    have hchar : ∃ c ∈ s.toList, c.toLower ∈ ['t', '1', 'y'] := by
      have hlist : (Text.lower s).toList = s.toList.map Char.toLower := by
        rw [Text.lower, String.toList_ofList]
      have hfirst : ∀ word ∈ ["true", "1", "t", "y", "yes"],
          (word.toList.any fun c => c ∈ ['t', '1', 'y']) = true := by decide +kernel
      obtain ⟨c, hc, hin⟩ := List.any_eq_true.mp (hfirst _ hword)
      rw [decide_eq_true_eq] at hin
      rw [hlist] at hc
      obtain ⟨d, hd, rfl⟩ := List.mem_map.mp hc
      exact ⟨d, hd, hin⟩
    obtain ⟨c, hc, hin⟩ := hchar
    have hspace : Text.isSpace c = false := by
      by_contra hspace
      rw [Bool.not_eq_false] at hspace
      have hlower : c.toLower = c := by
        rw [Char.toLower.eq_def, dif_neg]
        intro hupper
        rw [Text.isSpace, decide_eq_true_eq] at hspace
        have hrange : 65 ≤ c.toNat ∧ c.toNat ≤ 90 := hupper
        simp only [List.mem_cons, List.not_mem_nil, or_false] at hspace
        omega
      rw [hlower] at hin
      revert hspace
      simp only [List.mem_cons, List.not_mem_nil, or_false] at hin
      rcases hin with rfl | rfl | rfl <;> decide
    rw [PyVal.isBlank, Text.isBlank_of_mem hc hspace] at hblank
    cases hblank

/-- The default port, for a column that is empty or not there. -/
theorem portsAlike_empty {port : PyVal} (h : port = .none ∨ port = .str "") :
    PortsAlike port (.int 161) := by
  have hdefault : ∀ address, transformAddressToKey address (.int 161) =
      .ok (address.format ++ ":161") := by
    intro address
    rw [transformAddressToKey, PyVal.truthy_int, PyVal.toInt_int]
    simp only [bind, Except.bind, if_true]
    rfl
  rcases h with rfl | rfl <;> exact ⟨fun address => (hdefault address).trans rfl, by decide +kernel⟩

/-- A plain numeral is as good as its number. -/
theorem portsAlike_numeral {n : ℤ} (hzero : n ≠ 0)
    (hint : (PyVal.str (toString n)).toInt = .ok n) :
    PortsAlike (.str (toString n)) (.int n) := by
  have htruthy : (PyVal.str (toString n)).truthy = true := by
    by_contra hfalsy
    exact hzero (PyVal.eq_zero_of_falsy (Bool.not_eq_true _ ▸ hfalsy) hint)
  constructor
  · intro address
    rw [transformAddressToKey, transformAddressToKey, htruthy, hint]
    simp [hzero, PyVal.format]
  · rw [InventoryRecord.portValidator, InventoryRecord.portValidator, PyVal.isBlank_of_toInt hint,
      hint]
    rfl

section Convert

variable {fullWalk ownEngines : Bool} {line row : SourceRecord}

/-- Most columns are not converted. -/
theorem get?_convertLine (h : convertLine line = .ok row) {key : String}
    (hkey : key ∉ ["securityEngine", "security_engine", "SmartProfiles", "smart_profiles",
      "delete", "port", "walk_interval", "max_oid_to_process"]) :
    row.columns.get? key = line.columns.get? key := by
  simp only [List.mem_cons, List.not_mem_nil, or_false, not_or] at hkey
  obtain ⟨h₁, h₂, h₃, h₄, h₅, h₆, h₇, h₈⟩ := hkey
  obtain ⟨_, _, _, _, _, -, -, -, -, -, rfl⟩ := convertLine_eq_ok_iff.mp h
  rw [get?_set, if_neg h₇, get?_set, if_neg h₆, get?_set, if_neg h₈, get?_set, if_neg h₄, get?_set,
    if_neg h₅, get?_renameColumns h₁ h₂ h₃, if_neg h₄]

theorem restKey_renameColumns (line : SourceRecord) :
    (renameColumns line).restKey = line.restKey := by
  have hone : ∀ (key newKey : String) (line : SourceRecord),
      (renameColumn key newKey line).restKey = line.restKey := by
    intro key newKey line
    unfold renameColumn
    split <;> rfl
  rw [renameColumns, hone, hone]

theorem portsAlike_convertPort {port : PyVal} {number : ℤ} (h : convertPort port = .ok number)
    (hplain : port = .none ∨ port = .str "" ∨ ∃ n : ℤ, n ≠ 0 ∧ port = .str (toString n)) :
    PortsAlike port (.int number) := by
  rcases hplain with rfl | rfl | ⟨n, hzero, rfl⟩
  · cases h
    exact portsAlike_empty (.inl rfl)
  · cases h
    exact portsAlike_empty (.inr rfl)
  · have htruthy : (PyVal.str (toString n)).truthy = true := by
      have hblank := Text.isBlank_toString n
      rw [PyVal.truthy, decide_eq_true_iff]
      intro hempty
      rw [hempty] at hblank
      exact absurd hblank (by decide)
    rw [convertPort, if_pos htruthy] at h
    have hnumber : number = n := by
      have hparse := h
      rw [PyVal.toInt] at hparse
      split at hparse
      · next m hm =>
        cases hparse
        exact Text.parseInt_toString hm
      · cases hparse
    subst hnumber
    exact portsAlike_numeral hzero h

theorem walkIntervalValidator_convert {raw : PyVal} {text : String} {interval : ℤ}
    (hraw : raw = .str text) (h : convertWalkInterval raw = .ok interval) :
    ∃ n, raw.toInt = .ok n ∧ interval = (if 1800 ≤ n then n else 1800) ∧
      InventoryRecord.walkIntervalValidator (.int interval) =
        InventoryRecord.walkIntervalValidator raw := by
  obtain ⟨n, hn, hinterval⟩ := PyError.bind_eq_ok.mp h
  cases hinterval
  refine ⟨n, hn, rfl, ?_⟩
  have htruthy : raw.truthy = true := by
    subst hraw
    rw [PyVal.truthy, decide_eq_true_iff]
    rintro rfl
    revert hn
    rw [show (PyVal.str "").toInt = .error .valueError by decide +kernel]
    simp
  have hpositive : (PyVal.int (if 1800 ≤ n then n else 1800)).truthy = true := by
    rw [PyVal.truthy_int, decide_eq_true_iff]
    split <;> omega
  rw [InventoryRecord.walkIntervalValidator, InventoryRecord.walkIntervalValidator, htruthy,
    hpositive, hn, PyVal.toInt_int]
  simp only [bind, Except.bind, Bool.not_true, Bool.false_eq_true, if_false, Except.ok.injEq]
  split_ifs <;> omega

theorem maxOidToProcessValidator_convert {raw converted : PyVal}
    (h : convertMaxOid raw = .ok converted) :
    InventoryRecord.maxOidToProcessValidator converted =
      InventoryRecord.maxOidToProcessValidator raw := by
  unfold convertMaxOid at h
  split at h
  · next hgiven =>
    cases hint : raw.toInt with
    | error err =>
      rw [hint] at h
      cases h
    | ok n =>
      rw [hint] at h
      cases h
      rw [InventoryRecord.maxOidToProcessValidator, InventoryRecord.maxOidToProcessValidator,
        hgiven.2, hint]
      rfl
  · next hgiven =>
    cases h
    cases hblank : raw.isBlank with
    | true =>
      rw [InventoryRecord.maxOidToProcessValidator, InventoryRecord.maxOidToProcessValidator,
        hblank]
      rfl
    | false =>
      -- a falsy number is below every limit
      have hfalsy : raw.truthy = false := by simpa [hblank] using hgiven
      cases raw with
      | none => cases hblank
      | bool b =>
        cases hfalsy
        rfl
      | int i =>
        have hi : i = 0 := by simpa using hfalsy
        subst hi
        rfl
      | str s =>
        have hs : s = "" := by simpa [PyVal.truthy] using hfalsy
        subst hs
        exact absurd hblank (by decide)

/-- **A portable line and the row it is copied to are alike.** -/
theorem alike_of_convertLine (hportable : Portable fullWalk ownEngines line)
    (h : convertLine line = .ok row) : Alike fullWalk ownEngines line row := by
  have hkept : ∀ key ∈ keptColumns,
      key ∉ ["securityEngine", "security_engine", "SmartProfiles", "smart_profiles",
        "delete", "port", "walk_interval", "max_oid_to_process"] := by decide
  have hother : ∀ key ∈ keptColumns, row.columns.get? key = line.columns.get? key :=
    fun key hkey => get?_convertLine h (hkept key hkey)
  obtain ⟨delete, smartProfiles, port, walkInterval, maxOid, ⟨raw, hraw, hdelete⟩,
    ⟨raw', hraw', hsmart⟩, hport, ⟨raw'', hraw'', hwalk⟩, hmax, rfl⟩ := convertLine_eq_ok_iff.mp h
  obtain ⟨given, hgiven, hplain⟩ := hportable.port
  obtain ⟨text, htext, hinterval⟩ := hportable.walkInterval
  cases hraw''.symm.trans htext
  obtain ⟨n, hn, hmaximum, hvalid⟩ := walkIntervalValidator_convert rfl hwalk
  refine ⟨restKey_renameColumns line, hother, ?_, ?_, hportable.engine,
    ⟨given, .int port, hgiven, ?_, ?_⟩, ⟨_, .int walkInterval, hraw'', ?_, hvalid, ?_⟩, ?_,
    ⟨raw', smartProfiles, hraw', ?_, ?_, ?_⟩, ⟨raw, delete, hraw, ?_, ?_⟩⟩
  · simp [get?_set, renameColumns, get?_renameColumn]
  · simp [get?_set, renameColumns, get?_renameColumn]
  · simp [get?_set]
  · rw [Dict.getD, hgiven] at hport
    exact portsAlike_convertPort hport hplain
  · simp [get?_set]
  · refine hinterval.imp_right fun hlarge => ?_
    rw [hn, hmaximum, if_pos (hlarge n hn)]
    rfl
  · have hrow : ∀ rest : SourceRecord, (((rest.set "max_oid_to_process" maxOid).set "port"
        (.int port)).set "walk_interval" (.int walkInterval)).columns.get? "max_oid_to_process" =
        some maxOid := by
      intro rest
      simp [get?_set]
    rw [InventoryRecord.validated, InventoryRecord.validated, hrow]
    simp only
    rw [maxOidToProcessValidator_convert hmax, SourceRecord.get, Dict.getD]
    cases line.columns.get? "max_oid_to_process" <;> rfl
  · rw [InventoryRecord.smartProfilesValidator, hportable.smartProfiles raw' hraw']
    exact hsmart
  · simp [get?_set, renameColumns, get?_renameColumn]
  · simp [get?_set]
  · rw [InventoryRecord.deleteValidator]
    split
    · next hblank => rw [humanBool_of_isBlank hblank hdelete]
    · exact hdelete
  · simp [get?_set]

/-- A record passed the validator of its smart profiles. -/
theorem ofSource_smartProfiles {lookup : AddressLookup} {source : SourceRecord}
    {ir : InventoryRecord} (h : InventoryRecord.ofSource lookup source = .ok ir) {raw : PyVal}
    (hraw : (source.columns.get? "SmartProfiles").or (source.columns.get? "smart_profiles") =
      some raw) :
    ∃ flag, InventoryRecord.smartProfilesValidator raw = .ok flag ∧
      ir.smartProfiles = some flag := by
  rw [InventoryRecord.ofSource] at h
  split at h
  · cases h
  · simp only [PyError.bind_eq_ok] at h
    obtain ⟨_, -, _, -, _, -, _, -, _, -, _, -, _, -, _, -, _, -, smartProfiles, hsmart, _, -, _, -,
      h⟩ := h
    cases h
    rw [InventoryRecord.validated, (InventoryRecord.get?_renameAlternatives_current _).2,
      hraw] at hsmart
    cases hflag : InventoryRecord.smartProfilesValidator raw with
    | error err =>
      simp only [hflag] at hsmart
      cases hsmart
    | ok flag =>
      simp only [hflag] at hsmart
      cases hsmart
      exact ⟨flag, rfl, rfl⟩

/-- **A blank column is copied with the opposite meaning**: the record of the line looks for
smart profiles, the record of its row does not. -/
theorem smartProfiles_convertLine_of_blank {lookup : AddressLookup}
    (hrow : convertLine line = .ok row) {raw : PyVal} (hraw : (line.columns.get? "SmartProfiles").or
      (line.columns.get? "smart_profiles") = some raw) (hblank : raw.isBlank = true)
    {ir ir' : InventoryRecord} (h : InventoryRecord.ofSource lookup line = .ok ir)
    (h' : InventoryRecord.ofSource lookup row = .ok ir') :
    ir.smartProfiles = some true ∧ ir'.smartProfiles = some false := by
  obtain ⟨delete, smartProfiles, port, walkInterval, maxOid, -, ⟨raw', hraw', hsmart⟩, -, -, -,
    rfl⟩ := convertLine_eq_ok_iff.mp hrow
  cases hraw.symm.trans hraw'
  have hfalse : smartProfiles = false := humanBool_of_isBlank hblank hsmart
  obtain ⟨flag, hvalid, hir⟩ := ofSource_smartProfiles h hraw
  obtain ⟨flag', hvalid', hir'⟩ := ofSource_smartProfiles h'
    (by simp [get?_set, renameColumns, get?_renameColumn] :
      _ = some (.bool smartProfiles))
  rw [InventoryRecord.smartProfilesValidator, if_pos hblank] at hvalid
  rw [hir, hir', ← Except.ok.inj hvalid, ← Except.ok.inj hvalid', hfalse]
  exact ⟨rfl, rfl⟩

end Convert

end Sc4snmp
