import Sc4snmp.Common.CollectionManager
import Sc4snmp.Common.InventoryProcessor
import Sc4snmp.Inventory.UiMigration

/-!
# Gathering the configuration

`gather_elements` and `update_all` of `common/collection_manager.py`: the groups and the
profiles of a load come from the configuration file or from the UI collections, the profiles
on top of the ones that are shipped.  A profile of the configuration takes the place of a
shipped one, or removes it when it is disabled; the schemas do not know the key `enabled`, so
a profile that has it is never used itself.

## Main definitions

* `ConfigElement` — a group or a profile, as far as the code and the schemas tell them apart.
* `RuntimeConfig` — the configuration file.
* `GroupsManager.gatherElements`, `ProfilesManager.gatherElements` — the source.
* `saidProfile` — what the configuration and the shipped files say under a name.

## Main results

* `get?_validateProfiles_gatherElements` — **the profiles in use are the ones said last**.
* `gatherGroups_switch`, `gatherProfiles_switch` — the UI collections and the file they were
  filled from give the same.
-/

namespace Sc4snmp

open UiMigration

/-! ### The elements -/

/-- An element of the configuration. -/
inductive ConfigElement
  /-- A list that the schema of a group accepts. -/
  | group (hosts : List GroupObject)
  /-- A mapping: the truth value of its key `enabled`, and the rest. -/
  | mapping (enabled : Option Bool) (rest : RawProfile)
  | other

namespace ConfigElement

/-- `profile.get("enabled", True)`. -/
def enabled : ConfigElement → Except PyError Bool
  | .mapping enabled _ => .ok (enabled.getD true)
  | _ => .error .attributeError

/-- The group that `group_schema` accepts. -/
def asGroup : ConfigElement → Option (List GroupObject)
  | .group hosts => some hosts
  | _ => none

/-- The element for the schemas of the profiles, none of which has a key `enabled`. -/
def asProfile : ConfigElement → RawProfile
  | .mapping none rest => rest
  | _ => none

/-- The profile that a schema accepts. -/
def validProfile? (element : ConfigElement) : Option ProfileBody := validProfile element.asProfile

theorem validProfile?_of_enabled {element : ConfigElement} (h : element.enabled = .ok false) :
    element.validProfile? = none := by
  cases element with
  | group hosts => cases h
  | other => cases h
  | mapping enabled rest =>
    cases enabled with
    | none => cases h
    | some enabled => rfl

end ConfigElement

/-- A section of the configuration file. -/
inductive RuntimeSection
  | absent
  /-- The key is there with nothing. -/
  | header
  | mapping (entries : Dict String ConfigElement)
  /-- A list or a scalar. -/
  | other

/-- The configuration file. -/
inductive RuntimeConfig
  | missing
  /-- It cannot be read, or `in` raises for its content: a number, or nothing. -/
  | unreadable
  /-- A list or a text counts as a mapping, of which each section it has in it is `other`. -/
  | mapping (groups profiles : RuntimeSection)

/-- The entries of a section that is not there, or a mapping. -/
def RuntimeSection.entries? : RuntimeSection → Option (List (String × ConfigElement))
  | .absent => some []
  | .mapping entries => some entries.entries
  | _ => none

/-- A section as the migration reads it, for which only a mapping will do. -/
def RuntimeSection.forUi : RuntimeSection → YamlSection ConfigElement
  | .absent => .absent
  | .mapping entries => .mapping entries
  | .header => .other
  | .other => .other

/-- The file as the migration reads it. -/
def RuntimeConfig.forUi : RuntimeConfig → ConfigFile ConfigElement
  | .missing => .missing
  | .unreadable => .unreadable
  | .mapping groups profiles => .mapping groups.forUi profiles.forUi

/-! ### Groups -/

namespace GroupsManager

/-- `gather_elements` of the groups; a section that is only a header gives `None`.  That
another one is no mapping comes out in `validate_elements`. -/
def gatherElements (configFromMongo : Bool) (config : RuntimeConfig)
    (groupsUi : List (String × ConfigElement)) :
    Except PyError (Option (Dict String ConfigElement)) :=
  if configFromMongo then .ok (some (Dict.ofList groupsUi))
  else match config with
    | .missing => .ok (some Dict.empty)
    | .unreadable => .error .other
    | .mapping .absent _ => .ok (some Dict.empty)
    | .mapping .header _ => .ok none
    | .mapping (.mapping entries) _ => .ok (some entries)
    | .mapping .other _ => .error .attributeError

/-- `validate_elements` of the groups: the ones that are not valid are left out. -/
def validateElements (elements : Dict String ConfigElement) : Groups :=
  Dict.ofList (elements.entries.filterMap fun element =>
    element.2.asGroup.map fun hosts => (element.1, hosts))

/-- `update_all` of the groups, with what `gather_elements` has gathered. -/
def updateAll (elements : Option (Dict String ConfigElement))
    (documents : List (String × List GroupObject)) : List (String × List GroupObject) :=
  updateCollection (validateElements (elements.getD Dict.empty)) documents

end GroupsManager

/-! ### Profiles -/

namespace ProfilesManager

/-- `assign_profiles_to_dict`. -/
def assignProfilesToDict (activeProfiles : Dict String ConfigElement)
    (item : String × ConfigElement) : Except PyError (Dict String ConfigElement) :=
  if item.1 ∈ activeProfiles then do
    if ← item.2.enabled then return activeProfiles.insert item.1 item.2
    else return activeProfiles.erase item.1
  else .ok (activeProfiles.insert item.1 item.2)

/-- `merge_profiles_from_ui`. -/
def mergeProfilesFromUi (activeProfiles : Dict String ConfigElement)
    (profilesUi : List (String × ConfigElement)) : Except PyError (Dict String ConfigElement) :=
  profilesUi.foldlM assignProfilesToDict activeProfiles

/-- `merge_profiles_from_config_file`. -/
def mergeProfilesFromConfigFile (activeProfiles : Dict String ConfigElement) :
    RuntimeConfig → Except PyError (Dict String ConfigElement)
  | .missing => .ok activeProfiles
  | .unreadable => .error .other
  | .mapping _ .absent => .ok activeProfiles
  | .mapping _ (.mapping entries) => entries.entries.foldlM assignProfilesToDict activeProfiles
  | .mapping _ .header => .error .attributeError
  | .mapping _ .other => .error .attributeError

/-- The profiles of the files in the package, in the order they are listed. -/
def sharedProfiles (files : List (Dict String ConfigElement)) : Dict String ConfigElement :=
  files.foldl Dict.update Dict.empty

/-- `gather_elements` of the profiles. -/
def gatherElements (files : List (Dict String ConfigElement)) (configFromMongo : Bool)
    (config : RuntimeConfig) (profilesUi : List (String × ConfigElement)) :
    Except PyError (Dict String ConfigElement) :=
  if configFromMongo then mergeProfilesFromUi (sharedProfiles files) profilesUi
  else mergeProfilesFromConfigFile (sharedProfiles files) config

end ProfilesManager

/-! ### The profiles in use -/

/-- The profiles of the configuration, in their order. -/
def configuredProfiles (configFromMongo : Bool) (config : RuntimeConfig)
    (profilesUi : List (String × ConfigElement)) : List (String × ConfigElement) :=
  if configFromMongo then profilesUi
  else match config with
    | .mapping _ (.mapping entries) => entries.entries
    | _ => []

/-- The groups of the configuration, in their order. -/
def configuredGroups (configFromMongo : Bool) (config : RuntimeConfig)
    (groupsUi : List (String × ConfigElement)) : List (String × ConfigElement) :=
  if configFromMongo then groupsUi
  else match config with
    | .mapping (.mapping entries) _ => entries.entries
    | _ => []

/-- What is said last under a name: by the configuration, or else by the shipped files. -/
def saidProfile (files : List (Dict String ConfigElement))
    (configured : List (String × ConfigElement)) (name : String) : Option ConfigElement :=
  (configured.reverse.lookup name).or (files.reverse.findSome? (Dict.get? · name))

namespace ProfilesManager

variable {activeProfiles activeProfiles' : Dict String ConfigElement}
  {files : List (Dict String ConfigElement)} {configFromMongo : Bool} {config : RuntimeConfig}
  {profilesUi : List (String × ConfigElement)}

theorem get?_sharedProfiles (files : List (Dict String ConfigElement)) (name : String) :
    (sharedProfiles files).get? name = files.reverse.findSome? (Dict.get? · name) := by
  induction files using List.reverseRecOn with
  | nil => rfl
  | append_singleton files file ih =>
    rw [sharedProfiles, List.foldl_append, List.foldl_cons, List.foldl_nil, Dict.get?_update,
      List.reverse_append, List.reverse_singleton, List.singleton_append, List.findSome?_cons]
    rw [sharedProfiles] at ih
    cases file.get? name with
    | none => simpa using ih
    | some profile => rfl

theorem gatherElements_eq_ok (h : gatherElements files configFromMongo config profilesUi =
    .ok activeProfiles) : (configuredProfiles configFromMongo config profilesUi).foldlM
      assignProfilesToDict (sharedProfiles files) = .ok activeProfiles := by
  unfold gatherElements at h
  unfold configuredProfiles
  split at h
  · next hmongo => rwa [if_pos hmongo]
  · next hmongo =>
    rw [if_neg hmongo]
    unfold mergeProfilesFromConfigFile at h
    split at h
    all_goals first | exact h | cases h

/-- A profile that is assigned is the one in use under its name, if a schema accepts it. -/
theorem used_assignProfilesToDict {item : String × ConfigElement}
    (h : assignProfilesToDict activeProfiles item = .ok activeProfiles') (name : String) :
    (activeProfiles'.get? name).bind ConfigElement.validProfile? =
      if name = item.1 then item.2.validProfile?
      else (activeProfiles.get? name).bind ConfigElement.validProfile? := by
  unfold assignProfilesToDict at h
  have hinsert : ((activeProfiles.insert item.1 item.2).get? name).bind
      ConfigElement.validProfile? = if name = item.1 then item.2.validProfile?
        else (activeProfiles.get? name).bind ConfigElement.validProfile? := by
    rw [Dict.get?_insert]
    split <;> rfl
  split at h
  · obtain ⟨enabled, henabled, h⟩ := PyError.bind_eq_ok.mp h
    cases enabled with
    | true =>
      cases h
      exact hinsert
    | false =>
      -- a disabled profile is not in use, and neither is the one it removes
      cases h
      rw [Dict.get?_erase]
      split
      · exact (ConfigElement.validProfile?_of_enabled henabled).symm
      · rfl
  · cases h
    exact hinsert

theorem used_foldlM {items : List (String × ConfigElement)}
    (h : items.foldlM assignProfilesToDict activeProfiles = .ok activeProfiles') (name : String) :
    (activeProfiles'.get? name).bind ConfigElement.validProfile? =
      ((items.reverse.lookup name).or (activeProfiles.get? name)).bind
        ConfigElement.validProfile? := by
  induction items generalizing activeProfiles with
  | nil =>
    cases h
    rfl
  | cons item items ih =>
    rw [List.foldlM_cons] at h
    obtain ⟨next, hnext, h⟩ := PyError.bind_eq_ok.mp h
    rw [ih h, List.reverse_cons, List.lookup_append]
    have hitem := used_assignProfilesToDict hnext name
    cases hlast : items.reverse.lookup name with
    | some profile => rfl
    | none =>
      rw [Option.none_or, Option.none_or, hitem, Dict.lookup_cons_ite, List.lookup_nil]
      split <;> rfl

/-- **The profile in use under a name is what is said last**, by the configuration or else by
the shipped files, if a schema accepts it: one that the configuration disables, or spoils, is
not replaced by the shipped one. -/
theorem get?_validateProfiles_gatherElements
    (h : gatherElements files configFromMongo config profilesUi = .ok activeProfiles)
    (name : String) :
    (validateProfiles (activeProfiles.mapValues ConfigElement.asProfile)).get? name =
      (saidProfile files (configuredProfiles configFromMongo config profilesUi) name).bind
        ConfigElement.validProfile? := by
  have hused := used_foldlM (gatherElements_eq_ok h) name
  rw [get?_sharedProfiles] at hused
  rw [saidProfile, ← hused, validateProfiles, Dict.get?_ofList_filterMap, Dict.get?_mapValues,
    Option.bind_map]
  rfl

end ProfilesManager

/-- **The group under a name is the one said last**, if the schema accepts it. -/
theorem GroupsManager.get?_validateElements_gatherElements {configFromMongo : Bool}
    {config : RuntimeConfig} {groupsUi : List (String × ConfigElement)}
    {elements : Option (Dict String ConfigElement)}
    (h : gatherElements configFromMongo config groupsUi = .ok elements) (name : String) :
    (validateElements (elements.getD Dict.empty)).get? name =
      ((configuredGroups configFromMongo config groupsUi).reverse.lookup name).bind
        ConfigElement.asGroup := by
  have hlast : (elements.getD Dict.empty).get? name =
      (configuredGroups configFromMongo config groupsUi).reverse.lookup name := by
    have hofList : ∀ entries : List (String × ConfigElement),
        (Dict.ofList entries).get? name = entries.reverse.lookup name := by
      intro entries
      rw [Dict.ofList, Dict.get?_updateList_eq_last, Dict.get?_empty, Option.or_none]
    unfold gatherElements at h
    unfold configuredGroups
    split at h
    · next hmongo =>
      cases h
      rw [if_pos hmongo]
      exact hofList groupsUi
    · next hmongo =>
      rw [if_neg hmongo]
      split at h
      · cases h
        rfl
      · cases h
      · cases h
        rfl
      · cases h
        rfl
      · next entries _ =>
        cases h
        have hentries := hofList entries.entries
        rwa [Dict.ofList_entries] at hentries
      · cases h
  rw [validateElements, Dict.get?_ofList_filterMap, hlast]

/-! ### The UI collections and the file -/

variable {config : RuntimeConfig} {groups profiles : List (String × ConfigElement)}

/-- What the migration reads from a file. -/
theorem readConfigRuntime_forUi (h : readConfigRuntime config.forUi = .ok (groups, profiles)) :
    config = .missing ∧ groups = [] ∧ profiles = [] ∨
      ∃ groupsSection profilesSection, config = .mapping groupsSection profilesSection ∧
        groupsSection.entries? = some groups ∧ profilesSection.entries? = some profiles := by
  cases config with
  | missing =>
    cases h
    exact .inl ⟨rfl, rfl, rfl⟩
  | unreadable => cases h
  | mapping groupsSection profilesSection =>
    cases groupsSection <;> cases profilesSection <;> cases h <;> exact .inr ⟨_, _, rfl, rfl, rfl⟩

/-- The groups that the migration reads are gathered alike from the file and from the
documents they become. -/
theorem gatherGroups_switch (h : readConfigRuntime config.forUi = .ok (groups, profiles)) :
    GroupsManager.gatherElements true config groups =
      GroupsManager.gatherElements false config [] := by
  rcases readConfigRuntime_forUi h with ⟨rfl, rfl, -⟩ | ⟨groupsSection, _, rfl, hgroups, -⟩
  · rfl
  · cases groupsSection with
    | absent =>
      cases hgroups
      rfl
    | mapping entries =>
      cases hgroups
      exact congrArg (fun d => Except.ok (some d)) (Dict.ofList_entries entries)
    | header => cases hgroups
    | other => cases hgroups

/-- And the profiles. -/
theorem gatherProfiles_switch (h : readConfigRuntime config.forUi = .ok (groups, profiles))
    (files : List (Dict String ConfigElement)) :
    ProfilesManager.gatherElements files true config profiles =
      ProfilesManager.gatherElements files false config [] := by
  rcases readConfigRuntime_forUi h with ⟨rfl, -, rfl⟩ | ⟨_, profilesSection, rfl, -, hprofiles⟩
  · rfl
  · cases profilesSection with
    | absent =>
      cases hprofiles
      rfl
    | mapping entries =>
      cases hprofiles
      rfl
    | header => cases hprofiles
    | other => cases hprofiles

end Sc4snmp
