import Mathlib.Data.List.Sort
import Sc4snmp.Common.Profile

/-!
# Resolving profiles to varbinds

`snmp/varbinds_resolver.py`: the varbinds of a profile are divided into the ones that
are walked and the ones that are asked for, without those a more general one covers,
and profiles polled together are added up.  The collection a worker keeps is brought
up to date with each configuration it reads.  An object identity is built from the
elements of a varbind and from nothing else, so the elements stand for it.

A profile without varbinds, an empty varbind, and an instance whose key has not
exactly one `::` make processing raise.

## Main definitions

* `Varbind`, `VarBindContainer` — varbinds under their mapping keys.
* `Profile.process`, `Profile.add` — dividing and joining.
* `ProfileCollection.update`, `getProfile`, `getPollingInfoFromProfiles`.

## Main results

* `process_returns_iff` — the profiles processing returns from.
* `processFrom_of_processable`, `processFrom_raises` — what processing a configuration leaves.
-/

namespace Sc4snmp

/-- The elements of a varbind. -/
abbrev Varbind := List VarbindItem

namespace Varbind

/-- `mapping_key`.  The key of a lone element is the element, a number included. -/
def mappingKey : Varbind → Except PyError VarbindItem
  | [] => .error .indexError
  | [mib] => .ok mib
  | [mib, object] => .ok (.str (mib.format ++ "::" ++ object.format))
  | mib :: object :: index =>
    .ok (.str (mib.format ++ "::" ++ object.format ++ "." ++
      String.intercalate "." (index.map VarbindItem.format)))

theorem mappingKey_returns_iff (v : Varbind) : (∃ key, mappingKey v = .ok key) ↔ v ≠ [] := by
  rcases v with _ | ⟨mib, _ | ⟨object, _ | ⟨i, index⟩⟩⟩ <;> simp [mappingKey]

end Varbind

/-! ### Containers -/

/-- Varbinds under their mapping keys. -/
structure VarBindContainer where
  map : Dict VarbindItem Varbind
  deriving DecidableEq

namespace VarBindContainer

/-- `VarBindContainer()`. -/
def empty : VarBindContainer := ⟨Dict.empty⟩

/-- `insert_varbind`. -/
def insertVarbind (c : VarBindContainer) (v : Varbind) : Except PyError VarBindContainer := do
  let mappingKey ← v.mappingKey
  if mappingKey ∈ c.map then return c
  else if v.length > 1 ∧ (∃ mib ∈ v.head?, mib ∈ c.map) then return c
  else if v.length > 2 then
    let mappingKeyForTwo ← Varbind.mappingKey (v.take 2)
    if mappingKeyForTwo ∈ c.map then return c
    else return ⟨c.map.insert mappingKey v⟩
  else return ⟨c.map.insert mappingKey v⟩

/-- `get_profile_mapping`. -/
def getProfileMapping (c : VarBindContainer) (profileName : String) : Dict VarbindItem String :=
  c.map.mapValues fun _ => profileName

/-- `are_parents_in_map`, for the key of an instance. -/
def areParentsInMap (c : VarBindContainer) (key : VarbindItem) : Except PyError Bool :=
  match Text.splitDoubled ':' key.format.toList with
  | [varbindRoot, varbindField] =>
    let varbindField := varbindField.takeWhile (· ≠ '.')
    .ok (decide (.str (String.ofList varbindRoot) ∈ c.map) ||
      decide (.str (String.ofList varbindRoot ++ "::" ++ String.ofList varbindField) ∈ c.map))
  | _ => .error .valueError

/-- `len` of a key. -/
def keyLength : VarbindItem → Except PyError ℕ
  | .str s => .ok s.length
  | .int _ => .error .typeError

/-- `__add__`: the shorter keys first, so that general varbinds come before the ones they
cover. -/
def add (c c' : VarBindContainer) : Except PyError VarBindContainer := do
  let joinedMaps := c.map.update c'.map
  let keyed ← joinedMaps.entries.mapM fun e => do return (← keyLength e.1, e.2)
  let sorted := keyed.insertionSort fun a b => a.1 ≤ b.1
  (sorted.map Prod.snd).foldlM insertVarbind empty

end VarBindContainer

/-! ### Profiles -/

/-- The attributes of a `Profile`. -/
structure Profile where
  name : String
  type : Option String
  varbinds : Option (List Varbind)
  varbindsBulk : VarBindContainer := .empty
  varbindsGet : VarBindContainer := .empty
  varbindsBulkMapping : Dict VarbindItem String := Dict.empty
  varbindsGetMapping : Dict VarbindItem String := Dict.empty
  deriving DecidableEq

namespace Profile

/-- `Profile(name, profile_dict)`. -/
def new (name : String) (body : ProfileBody) : Profile where
  name := name
  type := body.conditionType
  varbinds := body.varBinds

/-- One varbind of `divide_on_bulk_and_get`. -/
def divideOne (p : Profile) (v : Varbind) : Except PyError Profile :=
  if v.length < 3 then do
    let varbindsBulk ← p.varbindsBulk.insertVarbind v
    return { p with varbindsBulk }
  else do
    let key ← v.mappingKey
    let covered ← p.varbindsBulk.areParentsInMap key
    if covered then return p
    else
      let varbindsGet ← p.varbindsGet.insertVarbind v
      return { p with varbindsGet }

/-- `divide_on_bulk_and_get`: the shorter varbinds first. -/
def divideOnBulkAndGet (p : Profile) : Except PyError Profile :=
  match p.varbinds with
  | none => .error .typeError
  | some varbinds =>
    (varbinds.insertionSort fun a b => a.length ≤ b.length).foldlM divideOne p

/-- The beginning of `process`: a walk profile walks the system group as well. -/
def startWalk (p : Profile) : Except PyError Profile :=
  if p.type = some "walk" then do
    let varbindsBulk ← p.varbindsBulk.insertVarbind [.str "SNMPv2-MIB"]
    return { p with varbindsBulk }
  else return p

/-- The end of `process`: the mappings of a profile that is no walk profile. -/
def mapProfile (p : Profile) : Profile :=
  if p.type = some "walk" then p
  else { p with
    varbindsBulkMapping := p.varbindsBulk.getProfileMapping p.name
    varbindsGetMapping := p.varbindsGet.getProfileMapping p.name }

/-- `process`. -/
def process (p : Profile) : Except PyError Profile := do
  let started ← p.startWalk
  let divided ← started.divideOnBulkAndGet
  return divided.mapProfile

/-- `unique_profile_names`. -/
def uniqueProfileNames (profileValue : String) : List String :=
  ((Text.splitOn ',' profileValue).filter (· ≠ "")).eraseDups

/-- `add_mappings`. -/
def addMappings (baseMapping incomingMapping : Dict VarbindItem String) :
    Dict VarbindItem String :=
  let merged := incomingMapping.entries.foldl (fun merged e =>
    let baseProfiles := merged.getD e.1 []
    let addedProfiles := (uniqueProfileNames e.2).filter (· ∉ baseProfiles)
    merged.insert e.1 (baseProfiles ++ addedProfiles)) (baseMapping.mapValues uniqueProfileNames)
  merged.mapValues (String.intercalate ",")

/-- `__add__`. -/
def add (p q : Profile) : Except PyError Profile := do
  let varbindsBulk ← p.varbindsBulk.add q.varbindsBulk
  let varbindsGet ← p.varbindsGet.add q.varbindsGet
  return {
    name := p.name ++ ":" ++ q.name
    type := none
    varbinds := none
    varbindsBulk := varbindsBulk
    varbindsGet := varbindsGet
    varbindsBulkMapping := addMappings p.varbindsBulkMapping q.varbindsBulkMapping
    varbindsGetMapping := addMappings p.varbindsGetMapping q.varbindsGetMapping }

end Profile

/-! ### The collection -/

/-- The attributes of a `ProfileCollection`. -/
structure ProfileCollection where
  listOfProfilesRaw : Dict String ProfileBody
  listOfProfiles : Dict String Profile

/-- What the collection answers: a profile, `{}`, or `None`. -/
inductive PollingInfo
  | profile (p : Profile)
  | nothing
  | none
  deriving DecidableEq

namespace ProfileCollection

/-- The loop of `process_profiles`. -/
def processFrom : List (String × ProfileBody) → Dict String Profile →
    Dict String Profile × Except PyError Unit
  | [], processed => (processed, .ok ())
  | (profileName, body) :: profiles, processed =>
    match (Profile.new profileName body).process with
    | .error err => (processed, .error err)
    | .ok currentProfile => processFrom profiles (processed.insert profileName currentProfile)

/-- `process_profiles`. -/
def processProfiles (c : ProfileCollection) : ProfileCollection × Except PyError Unit :=
  let (listOfProfiles, result) := processFrom c.listOfProfilesRaw.entries c.listOfProfiles
  ({ c with listOfProfiles }, result)

/-- `ProfileCollection(list_of_profiles)`, processed. -/
def build (listOfProfiles : Dict String ProfileBody) : ProfileCollection × Except PyError Unit :=
  processProfiles ⟨listOfProfiles, Dict.empty⟩

/-- `update`. -/
def update (c : ProfileCollection) (listOfProfiles : Dict String ProfileBody) :
    ProfileCollection × Except PyError Unit :=
  if c.listOfProfilesRaw.Same listOfProfiles then (c, .ok ())
  else processProfiles { c with listOfProfilesRaw := listOfProfiles }

/-- The name is one of a generated profile. -/
def isProfileConditional (profileName : String) : Bool :=
  1 < (Text.splitDoubled '_' profileName.toList).length

/-- `get_profile`. -/
def getProfile (c : ProfileCollection) (profileName : String) : PollingInfo :=
  match c.listOfProfiles.get? profileName with
  | some profile =>
    if (profile.varbinds.getD []).isEmpty ∧ profile.type ≠ some "walk" ∧
        isProfileConditional profileName = false then .nothing
    else .profile profile
  | none => .nothing

/-- `combine_profiles`: of two that are no profiles it returns nothing at all. -/
def combineProfiles : PollingInfo → PollingInfo → Except PyError PollingInfo
  | .profile p, .profile q => do return .profile (← p.add q)
  | .profile p, _ => .ok (.profile p)
  | _, .profile q => .ok (.profile q)
  | _, _ => .ok .none

/-- `get_polling_info_from_profiles`. -/
def getPollingInfoFromProfiles (c : ProfileCollection) (profilesNames : List String)
    (isWalk : Bool) : Except PyError PollingInfo :=
  match profilesNames.map c.getProfile with
  | [] => .error (if isWalk then .indexError else .typeError)
  | profile :: profiles =>
    if profiles.isEmpty ∨ isWalk then .ok profile else profiles.foldlM combineProfiles profile

end ProfileCollection

/-! ### When processing returns -/

/-- The varbind has elements, and the key of an instance has exactly one `::`. -/
def Varbind.Divisible (v : Varbind) : Prop :=
  v ≠ [] ∧ (3 ≤ v.length → ∃ key root field, v.mappingKey = .ok key ∧
    Text.splitDoubled ':' key.format.toList = [root, field])

theorem insertVarbind_returns_iff (c : VarBindContainer) (v : Varbind) :
    (∃ c', c.insertVarbind v = .ok c') ↔ v ≠ [] := by
  rw [← Varbind.mappingKey_returns_iff]
  unfold VarBindContainer.insertVarbind
  constructor
  · rintro ⟨c', h⟩
    obtain ⟨key, hkey, -⟩ := PyError.bind_eq_ok.mp h
    exact ⟨key, hkey⟩
  · rintro ⟨key, hkey⟩
    rw [hkey]
    have hne : v.take 2 ≠ [] := by
      cases v with
      | nil => cases hkey
      | cons mib v => simp
    obtain ⟨keyForTwo, htwo⟩ := (Varbind.mappingKey_returns_iff (v.take 2)).mpr hne
    simp only [bind, Except.bind, htwo]
    split
    · exact ⟨_, rfl⟩
    · split
      · exact ⟨_, rfl⟩
      · split
        · split
          · exact ⟨_, rfl⟩
          · exact ⟨_, rfl⟩
        · exact ⟨_, rfl⟩

theorem areParentsInMap_returns_iff (c : VarBindContainer) (key : VarbindItem) :
    (∃ covered, c.areParentsInMap key = .ok covered) ↔
      ∃ root field, Text.splitDoubled ':' key.format.toList = [root, field] := by
  unfold VarBindContainer.areParentsInMap
  split
  · next root field heq => exact iff_of_true ⟨_, rfl⟩ ⟨root, field, heq⟩
  · next hne =>
    refine iff_of_false (by simp) ?_
    rintro ⟨root, field, heq⟩
    exact hne root field heq

namespace Profile

theorem divideOne_returns_iff (p : Profile) (v : Varbind) :
    (∃ p', p.divideOne v = .ok p') ↔ v.Divisible := by
  unfold divideOne Varbind.Divisible
  -- a MIB or an object goes to the bulk; an instance is asked for its parents first
  by_cases hlength : v.length < 3
  · rw [if_pos hlength, ← insertVarbind_returns_iff p.varbindsBulk v]
    constructor
    · rintro ⟨p', h⟩
      obtain ⟨c', hc, -⟩ := PyError.bind_eq_ok.mp h
      exact ⟨⟨c', hc⟩, fun hge => absurd hlength (by omega)⟩
    · rintro ⟨⟨c', hc⟩, -⟩
      exact ⟨_, PyError.bind_eq_ok.mpr ⟨c', hc, rfl⟩⟩
  · rw [if_neg hlength]
    constructor
    · rintro ⟨p', h⟩
      obtain ⟨key, hkey, h⟩ := PyError.bind_eq_ok.mp h
      obtain ⟨covered, hcovered, -⟩ := PyError.bind_eq_ok.mp h
      obtain ⟨root, field, hsplit⟩ :=
        (areParentsInMap_returns_iff p.varbindsBulk key).mp ⟨covered, hcovered⟩
      exact ⟨(Varbind.mappingKey_returns_iff v).mp ⟨key, hkey⟩,
        fun _ => ⟨key, root, field, hkey, hsplit⟩⟩
    · rintro ⟨hne, hinstance⟩
      obtain ⟨key, root, field, hkey, hsplit⟩ := hinstance (by omega)
      obtain ⟨covered, hcovered⟩ :=
        (areParentsInMap_returns_iff p.varbindsBulk key).mpr ⟨root, field, hsplit⟩
      obtain ⟨c', hc⟩ := (insertVarbind_returns_iff p.varbindsGet v).mpr hne
      simp only [hkey, hcovered, hc, bind, Except.bind]
      split
      · exact ⟨_, rfl⟩
      · exact ⟨_, rfl⟩

/-- Processing returns for the profiles that have varbinds, all of them divisible. -/
theorem process_returns_iff (name : String) (body : ProfileBody) :
    (∃ p, (new name body).process = .ok p) ↔
      ∃ varbinds, body.varBinds = some varbinds ∧ ∀ v ∈ varbinds, Varbind.Divisible v := by
  have hstart : ∃ started, (new name body).startWalk = .ok started ∧
      started.varbinds = body.varBinds := by
    unfold startWalk
    split
    · obtain ⟨c', hc⟩ := (insertVarbind_returns_iff (new name body).varbindsBulk
        [.str "SNMPv2-MIB"]).mpr (by simp)
      exact ⟨_, PyError.bind_eq_ok.mpr ⟨c', hc, rfl⟩, rfl⟩
    · exact ⟨_, rfl, rfl⟩
  obtain ⟨started, hstarted, hvarbinds⟩ := hstart
  have hdivide : (∃ divided, started.divideOnBulkAndGet = .ok divided) ↔
      ∃ varbinds, body.varBinds = some varbinds ∧ ∀ v ∈ varbinds, Varbind.Divisible v := by
    unfold divideOnBulkAndGet
    rw [hvarbinds]
    cases body.varBinds with
    | none => simp
    | some varbinds =>
      simp only [PyError.foldlM_returns_iff divideOne_returns_iff, List.mem_insertionSort,
        Option.some.injEq, exists_eq_left']
  rw [← hdivide]
  constructor
  · rintro ⟨p, h⟩
    obtain ⟨started', hstarted', h⟩ := PyError.bind_eq_ok.mp h
    cases hstarted.symm.trans hstarted'
    obtain ⟨divided, hdivided, -⟩ := PyError.bind_eq_ok.mp h
    exact ⟨divided, hdivided⟩
  · rintro ⟨divided, hdivided⟩
    exact ⟨_, PyError.bind_eq_ok.mpr
      ⟨started, hstarted, PyError.bind_eq_ok.mpr ⟨divided, hdivided, rfl⟩⟩⟩

end Profile

/-! ### What processing leaves -/

namespace ProfileCollection

/-- The answer for some names combines those for each of them. -/
theorem getPollingInfoFromProfiles_cons (c : ProfileCollection) (name : String)
    (names : List String) : c.getPollingInfoFromProfiles (name :: names) false =
      (names.map c.getProfile).foldlM combineProfiles (c.getProfile name) := by
  unfold getPollingInfoFromProfiles
  rw [List.map_cons]
  dsimp only
  -- one answer is taken as it is, without combining
  split
  · next hsingle =>
    have hnil : names = [] := by simpa using hsingle
    subst hnil
    rfl
  · rfl

/-- The profile is processed without raising. -/
def Processable (profile : String × ProfileBody) : Prop :=
  ∃ p, (Profile.new profile.1 profile.2).process = .ok p

/-- A configuration whose profiles can all be processed: each of them is there, and of other
names what was there before. -/
theorem processFrom_of_processable {profiles : List (String × ProfileBody)}
    (hnodup : (profiles.map Prod.fst).Nodup) (h : ∀ profile ∈ profiles, Processable profile)
    (processed : Dict String Profile) :
    ∃ processed', processFrom profiles processed = (processed', .ok ()) ∧
      (∀ name body, (name, body) ∈ profiles →
        processed'.get? name = (Profile.new name body).process.toOption) ∧
      ∀ name ∉ profiles.map Prod.fst, processed'.get? name = processed.get? name := by
  induction profiles generalizing processed with
  | nil => exact ⟨processed, rfl, by simp, fun _ _ => rfl⟩
  | cons profile profiles ih =>
    obtain ⟨profileName, body⟩ := profile
    rw [List.map_cons, List.nodup_cons] at hnodup
    rw [List.forall_mem_cons] at h
    obtain ⟨⟨p, hp⟩, hrest⟩ := h
    obtain ⟨processed', hrun, hlater, hother⟩ := ih hnodup.2 hrest (processed.insert profileName p)
    -- no later profile has the name of this one
    refine ⟨processed', ?_, ?_, ?_⟩
    · unfold processFrom
      rw [hp]
      exact hrun
    · intro name body' hmem
      rcases List.mem_cons.mp hmem with heq | hmem
      · cases heq
        rw [hother profileName hnodup.1, Dict.get?_insert, if_pos rfl, hp]
        rfl
      · exact hlater name body' hmem
    · intro name hname
      rw [List.map_cons, List.mem_cons, not_or] at hname
      rw [hother name hname.2, Dict.get?_insert, if_neg hname.1]

/-- A configuration with a profile that cannot be processed makes processing raise. -/
theorem processFrom_raises {profiles : List (String × ProfileBody)}
    (h : ¬ ∀ profile ∈ profiles, Processable profile) (processed : Dict String Profile) :
    ∃ processed' err, processFrom profiles processed = (processed', .error err) := by
  induction profiles generalizing processed with
  | nil => exact absurd (by simp) h
  | cons profile profiles ih =>
    obtain ⟨profileName, body⟩ := profile
    unfold processFrom
    cases hp : (Profile.new profileName body).process with
    | error err => exact ⟨processed, err, rfl⟩
    | ok p =>
      refine ih (fun hrest => h ?_) _
      exact List.forall_mem_cons.mpr ⟨⟨p, hp⟩, hrest⟩

end ProfileCollection

end Sc4snmp
