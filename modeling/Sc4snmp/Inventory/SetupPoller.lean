import Sc4snmp.Common.CollectionManager
import Sc4snmp.Common.InventoryRecord
import Sc4snmp.Inventory.PollSchedules
import Sc4snmp.Snmp.ProcessSnmpData

/-!
# Setting up the polls of a host

`inventory_setup_poller` of `inventory/tasks.py`, which runs after a walk: the
profiles of the host are assigned to frequencies, a profile is generated for each of
its conditional profiles and written to the profiles collection under the tag of the
host, and the polls are scheduled.

What the host answers to the conditions of a conditional profile is a query on the
attributes the walk has stored, and `re.search` decides about the patterns of a smart
profile; both are parameters, of which nothing is assumed.

## Main definitions

* `assignProfiles` — the profiles of a host by frequency, and its conditional ones.
* `setupConditional` — the loop over the conditional profiles.
* `inventorySetupPoller` — the task.

## Main results

* `setupConditional_spec` — tags are documents of the collection before they are assigned.
* `setupProfiles_spec` — every profile that is assigned has a document.
-/

namespace Sc4snmp

/-- The fields of a target document, by name, each with its value when it has one: what
`enrich` writes is the value of a field of a result. -/
abbrev TargetState := Dict String (Option MetricValue)

/-- The settings of the task and what it asks others. -/
structure PollerEnv where
  /-- `POLL_BASE_PROFILES`. -/
  pollBaseProfiles : Bool
  /-- `re.search(pattern, value)`. -/
  search : String → MetricValue → Except PyError Bool
  /-- The indexes of the attributes of an address that meet the conditions
  (`filter_condition_on_database`). -/
  query : String → List ConditionClause → Except PyError (List (List VarbindItem))

/-- What the task finds of a host: its inventory document, and its target document with
the `state` of that, when there is one. -/
structure PollerHost where
  inventory : Option InventoryRecord
  target : Option (Option TargetState)

/-! ### Assignment -/

/-- `add_profile_to_assigned_list`. -/
def addProfileToAssignedList (assigned : AssignedProfiles) (frequency : ℤ) (profileName : String) :
    AssignedProfiles :=
  assigned.insert frequency (assigned.getD frequency [] ++ [profileName])

/-- `is_smart_profile_valid`.  That patterns are a list is in their type, and the schemas
accept no profile with a `disabled` key. -/
def isSmartProfileValid (body : ProfileBody) : Bool :=
  body.frequency.isSome && body.condition.any fun condition =>
    condition.type = some "base" ||
      condition.type = some "field" && condition.field.isSome && condition.patterns.isSome

/-- The loop over the patterns of `assign_field_smart_profile`: the profile is added for
each pattern that is found. -/
def searchPatterns (env : PollerEnv) (value : MetricValue) (frequency : ℤ) (profileName : String) :
    List String → AssignedProfiles → Except PyError AssignedProfiles
  | [], assigned => .ok assigned
  | pattern :: patterns, assigned => do
    let found ← env.search pattern value
    searchPatterns env value frequency profileName patterns
      (if found then addProfileToAssignedList assigned frequency profileName else assigned)

/-- `assign_field_smart_profile`.  A target that is not there has no `in`. -/
def assignFieldSmartProfile (env : PollerEnv) (target : Option (Option TargetState))
    (profileName : String) (frequency : ℤ) (field : String) (patterns : List String)
    (assigned : AssignedProfiles) : Except PyError AssignedProfiles :=
  match target with
  | none => .error .typeError
  | some none => .ok assigned
  | some (some state) =>
    match state.get? (Text.replaceChar '.' '|' field) with
    | some (some value) => searchPatterns env value frequency profileName patterns assigned
    | _ => .ok assigned

/-- The loop of `assign_smart_profiles`. -/
def assignSmartFrom (env : PollerEnv) (target : Option (Option TargetState)) :
    List (String × ProfileBody) → AssignedProfiles → Except PyError AssignedProfiles
  | [], assigned => .ok assigned
  | (profileName, body) :: profiles, assigned =>
    match body.frequency, body.condition with
    | some frequency, some condition =>
      if !isSmartProfileValid body then assignSmartFrom env target profiles assigned
      else if condition.type = some "base" && env.pollBaseProfiles then
        assignSmartFrom env target profiles
          (addProfileToAssignedList assigned frequency profileName)
      else match condition.type, condition.field, condition.patterns with
        | some "field", some field, some patterns => do
          let assigned' ←
            assignFieldSmartProfile env target profileName frequency field patterns assigned
          assignSmartFrom env target profiles assigned'
        | _, _, _ => assignSmartFrom env target profiles assigned
    | _, _ => assignSmartFrom env target profiles assigned

/-- `assign_smart_profiles`. -/
def assignSmartProfiles (env : PollerEnv) (ir : InventoryRecord)
    (profiles : Dict String ProfileBody)
    (target : Option (Option TargetState)) : Except PyError AssignedProfiles :=
  if ir.smartProfiles = some true then assignSmartFrom env target profiles.entries Dict.empty
  else .ok Dict.empty

/-- A conditional profile. -/
def isConditional (body : ProfileBody) : Bool := body.condition.isNone && body.conditions.isSome

/-- The loop of `check_profiles_type` over the profiles of the inventory: the assigned
ones, and the conditional ones. -/
def checkProfilesType (profiles : Dict String ProfileBody) :
    List String → AssignedProfiles × List (String × ProfileBody) →
      AssignedProfiles × List (String × ProfileBody)
  | [], result => result
  | profileName :: names, (assigned, computed) =>
    match profiles.get? profileName with
    | none => checkProfilesType profiles names (assigned, computed)
    | some body =>
      if body.condition.isSome && body.conditionType = some "walk" then
        checkProfilesType profiles names (assigned, computed)
      else if isConditional body then
        checkProfilesType profiles names (assigned, computed ++ [(profileName, body)])
      else match body.frequency with
        | none => checkProfilesType profiles names (assigned, computed)
        | some frequency => checkProfilesType profiles names
            (addProfileToAssignedList assigned frequency profileName, computed)

/-- The mandatory profiles of `assign_profiles`.  One without a frequency, which no
schema accepts, would be scheduled with none. -/
def assignMandatory :
    List (String × ProfileBody) → AssignedProfiles → Except PyError AssignedProfiles
  | [], assigned => .ok assigned
  | (profileName, body) :: profiles, assigned =>
    if body.conditionType = some "mandatory" then
      match body.frequency with
      | none => .error .typeError
      | some frequency =>
        assignMandatory profiles (addProfileToAssignedList assigned frequency profileName)
    else assignMandatory profiles assigned

/-- `assign_profiles`. -/
def assignProfiles (env : PollerEnv) (ir : InventoryRecord) (profiles : Dict String ProfileBody)
    (target : Option (Option TargetState)) :
    Except PyError (AssignedProfiles × List (String × ProfileBody)) := do
  let smart ← assignSmartProfiles env ir profiles target
  let (assigned, computed) := checkProfilesType profiles ir.profiles (smart, [])
  let assigned' ← assignMandatory profiles.entries assigned
  return (assigned', computed)

/-! ### Conditional profiles -/

/-- The tag of the profile generated from a conditional profile for a host. -/
def profileTag (profileName address : String) : String :=
  profileName ++ "__" ++ Text.replaceChar '.' '|' address

/-- `create_profile`, the body. -/
def createProfile (frequency : Option ℤ) (varbinds records : List (List VarbindItem)) :
    ProfileBody :=
  { frequency
    varBinds := some (records.flatMap fun record =>
      (varbinds.filter fun varbind => varbind.length = 2).map fun varbind => varbind ++ record) }

/-- `generate_conditional_profile`, the body. -/
def generateConditionalProfile (env : PollerEnv) (body : ProfileBody) (address : String) :
    Except PyError ProfileBody :=
  match body.varBinds with
  | none | some [] => .error .other
  | some varbinds => do
    let records ← env.query address (body.conditions.getD [])
    return createProfile body.frequency varbinds records

/-- `replace_one({tag: {"$exists": True}}, …, upsert=True)`.  The database reads a tag
with dots as a path into a profile, whose fields have no such names. -/
def replaceProfile (tag : String) (body : ProfileBody) :
    List (String × ProfileBody) → List (String × ProfileBody)
  | [] => [(tag, body)]
  | document :: documents =>
    if document.1 = tag ∧ '.' ∉ tag.toList then (tag, body) :: documents
    else document :: replaceProfile tag body documents

/-- The loop over the conditional profiles of a host: one that cannot be generated is
passed over. -/
def setupConditional (env : PollerEnv) (address : String) :
    List (String × ProfileBody) → List (String × ProfileBody) → AssignedProfiles →
      List (String × ProfileBody) × Except PyError AssignedProfiles
  | [], documents, assigned => (documents, .ok assigned)
  | (profileName, body) :: computed, documents, assigned =>
    match generateConditionalProfile env body address with
    | .error _ => setupConditional env address computed documents assigned
    | .ok generated =>
      let tag := profileTag profileName address
      match body.frequency with
      | none => (replaceProfile tag generated documents, .error .keyError)
      | some frequency => setupConditional env address computed
          (replaceProfile tag generated documents) (addProfileToAssignedList assigned frequency tag)

/-- The first part of the task, once it has read the profiles: the documents it leaves, and
the profiles of the host by frequency. -/
def setupProfiles (env : PollerEnv) (host : PollerHost) (address : String)
    (profiles : Dict String ProfileBody) (documents : List (String × ProfileBody)) :
    List (String × ProfileBody) × Except PyError AssignedProfiles :=
  match host.inventory with
  | none => (documents, .error .valueError)
  | some ir =>
    match assignProfiles env ir profiles host.target with
    | .error err => (documents, .error err)
    | .ok (assigned, computed) => setupConditional env address computed documents assigned

/-- `inventory_setup_poller`, once it has read the profiles.  When scheduling raises, what
has been scheduled before is not in the result. -/
def inventorySetupPoller (env : PollerEnv) (host : PollerHost) (work : PollWork)
    (profiles : Dict String ProfileBody) (documents : List (String × ProfileBody))
    (schedules : ScheduleStore) : List (String × ProfileBody) × Except PyError ScheduleStore :=
  match setupProfiles env host work.address profiles documents with
  | (documents', .error err) => (documents', .error err)
  | (documents', .ok assigned) => (documents', reconcilePolls work assigned schedules)

/-! ### What is assigned -/

/-- Only profiles with these names are assigned. -/
def AssignsAmong (names : List String) (assigned : AssignedProfiles) : Prop :=
  ∀ period profiles, assigned.get? period = some profiles → ∀ p ∈ profiles, p ∈ names

section Assigned

variable {env : PollerEnv} {names : List String} {assigned assigned' : AssignedProfiles}

theorem AssignsAmong.empty (names : List String) : AssignsAmong names Dict.empty :=
  fun _ _ h => (nomatch h)

theorem AssignsAmong.mono {names' : List String} (h : AssignsAmong names assigned)
    (hsub : ∀ p ∈ names, p ∈ names') : AssignsAmong names' assigned :=
  fun period profiles hget p hp => hsub p (h period profiles hget p hp)

theorem AssignsAmong.add (h : AssignsAmong names assigned) (frequency : ℤ) {profileName : String}
    (hname : profileName ∈ names) :
    AssignsAmong names (addProfileToAssignedList assigned frequency profileName) := by
  intro period profiles hget p hp
  unfold addProfileToAssignedList at hget
  rw [Dict.get?_insert] at hget
  split at hget
  · cases hget
    rcases List.mem_append.mp hp with hold | hnew
    · unfold Dict.getD at hold
      cases hprofiles : assigned.get? frequency with
      | none => simp [hprofiles] at hold
      | some profiles => exact h frequency profiles hprofiles p (by simpa [hprofiles] using hold)
    · rwa [List.mem_singleton.mp hnew]
  · exact h period profiles hget p hp

theorem searchPatterns_among {value : MetricValue} {frequency : ℤ} {profileName : String}
    (hname : profileName ∈ names) {patterns : List String} (h : AssignsAmong names assigned)
    (hrun : searchPatterns env value frequency profileName patterns assigned = .ok assigned') :
    AssignsAmong names assigned' := by
  induction patterns generalizing assigned with
  | nil =>
    cases hrun
    exact h
  | cons pattern patterns ih =>
    obtain ⟨found, -, hrun⟩ := PyError.bind_eq_ok.mp hrun
    refine ih ?_ hrun
    cases found with
    | true => exact h.add frequency hname
    | false => exact h

theorem assignFieldSmartProfile_among {target : Option (Option TargetState)} {frequency : ℤ}
    {profileName field : String} {patterns : List String} (hname : profileName ∈ names)
    (h : AssignsAmong names assigned)
    (hrun : assignFieldSmartProfile env target profileName frequency field patterns assigned =
      .ok assigned') : AssignsAmong names assigned' := by
  unfold assignFieldSmartProfile at hrun
  split at hrun
  · cases hrun
  · cases hrun
    exact h
  · split at hrun
    · exact searchPatterns_among hname h hrun
    · cases hrun
      exact h

theorem assignSmartFrom_among {target : Option (Option TargetState)}
    {profiles : List (String × ProfileBody)} (hnames : ∀ p ∈ profiles.map Prod.fst, p ∈ names)
    (h : AssignsAmong names assigned)
    (hrun : assignSmartFrom env target profiles assigned = .ok assigned') :
    AssignsAmong names assigned' := by
  induction profiles generalizing assigned with
  | nil =>
    cases hrun
    exact h
  | cons profile profiles ih =>
    obtain ⟨profileName, body⟩ := profile
    rw [List.map_cons, List.forall_mem_cons] at hnames
    unfold assignSmartFrom at hrun
    split at hrun
    · split at hrun
      · exact ih hnames.2 h hrun
      · split at hrun
        · exact ih hnames.2 (h.add _ hnames.1) hrun
        · split at hrun
          · obtain ⟨assigned₁, hfield, hrun⟩ := PyError.bind_eq_ok.mp hrun
            exact ih hnames.2 (assignFieldSmartProfile_among hnames.1 h hfield) hrun
          · exact ih hnames.2 h hrun
    · exact ih hnames.2 h hrun

theorem checkProfilesType_among {profiles : Dict String ProfileBody} (assignable : List String)
    (computed : List (String × ProfileBody)) (h : AssignsAmong profiles.keys assigned) :
    AssignsAmong profiles.keys (checkProfilesType profiles assignable (assigned, computed)).1 := by
  induction assignable generalizing assigned computed with
  | nil => exact h
  | cons profileName assignable ih =>
    unfold checkProfilesType
    split
    · exact ih computed h
    · next body hbody =>
      split
      · exact ih computed h
      · split
        · exact ih _ h
        · split
          · exact ih computed h
          · exact ih computed (h.add _ (Dict.mem_keys_iff.mpr ⟨body, hbody⟩))

theorem assignMandatory_among {profiles : List (String × ProfileBody)}
    (hnames : ∀ p ∈ profiles.map Prod.fst, p ∈ names) (h : AssignsAmong names assigned)
    (hrun : assignMandatory profiles assigned = .ok assigned') : AssignsAmong names assigned' := by
  induction profiles generalizing assigned with
  | nil =>
    cases hrun
    exact h
  | cons profile profiles ih =>
    obtain ⟨profileName, body⟩ := profile
    rw [List.map_cons, List.forall_mem_cons] at hnames
    unfold assignMandatory at hrun
    split at hrun
    · split at hrun
      · cases hrun
      · exact ih hnames.2 (h.add _ hnames.1) hrun
    · exact ih hnames.2 h hrun

/-- The profiles that are assigned as they are come from the collection. -/
theorem assignProfiles_among {ir : InventoryRecord} {profiles : Dict String ProfileBody}
    {target : Option (Option TargetState)} {computed : List (String × ProfileBody)}
    (hrun : assignProfiles env ir profiles target = .ok (assigned, computed)) :
    AssignsAmong profiles.keys assigned := by
  unfold assignProfiles at hrun
  obtain ⟨smart, hsmart, hrun⟩ := PyError.bind_eq_ok.mp hrun
  obtain ⟨assigned₁, hmandatory, hrun⟩ := PyError.bind_eq_ok.mp hrun
  cases hrun
  refine assignMandatory_among (fun p hp => hp) (checkProfilesType_among _ _ ?_) hmandatory
  unfold assignSmartProfiles at hsmart
  split at hsmart
  · exact assignSmartFrom_among (fun p hp => hp) (.empty _) hsmart
  · cases hsmart
    exact .empty _

/-! ### The collection -/

theorem mem_replaceProfile_iff {tag : String} {body : ProfileBody}
    {documents : List (String × ProfileBody)} {p : String} :
    p ∈ (replaceProfile tag body documents).map Prod.fst ↔
      p = tag ∨ p ∈ documents.map Prod.fst := by
  induction documents with
  | nil => simp [replaceProfile]
  | cons document documents ih =>
    unfold replaceProfile
    split
    · next htag => simp [htag.1]
    · rw [List.map_cons, List.mem_cons, ih, List.map_cons, List.mem_cons, or_left_comm]

/-- The tags are documents of the collection before they are assigned, and no document
leaves it. -/
theorem setupConditional_spec {address : String} {computed documents : List (String × ProfileBody)}
    (h : AssignsAmong (documents.map Prod.fst) assigned)
    {documents' : List (String × ProfileBody)} {result : Except PyError AssignedProfiles}
    (hrun : setupConditional env address computed documents assigned = (documents', result)) :
    (∀ p ∈ documents.map Prod.fst, p ∈ documents'.map Prod.fst) ∧
      ∀ assigned', result = .ok assigned' → AssignsAmong (documents'.map Prod.fst) assigned' := by
  induction computed generalizing documents assigned with
  | nil =>
    cases hrun
    exact ⟨fun p hp => hp, fun assigned' heq => Except.ok.inj heq ▸ h⟩
  | cons profile computed ih =>
    obtain ⟨profileName, body⟩ := profile
    unfold setupConditional at hrun
    split at hrun
    · exact ih h hrun
    · next generated _ =>
      -- a conditional profile is written to the collection before it is assigned
      have hgrow : ∀ p ∈ documents.map Prod.fst,
          p ∈ (replaceProfile (profileTag profileName address) generated documents).map Prod.fst :=
        fun p hp => mem_replaceProfile_iff.mpr (Or.inr hp)
      simp only at hrun
      split at hrun
      · cases hrun
        exact ⟨hgrow, fun _ heq => (nomatch heq)⟩
      · have hassigned := (h.mono hgrow).add ‹ℤ› (mem_replaceProfile_iff.mpr (Or.inl rfl))
        obtain ⟨hgrow', hresult⟩ := ih hassigned hrun
        exact ⟨fun p hp => hgrow' p (hgrow p hp), hresult⟩

/-- Every profile the task assigns has a document once it is assigned, and no document
leaves the collection. -/
theorem setupProfiles_spec {host : PollerHost} {address : String}
    {documents documents' : List (String × ProfileBody)} {result : Except PyError AssignedProfiles}
    (hrun : setupProfiles env host address (returnCollectionOnce documents) documents =
      (documents', result)) :
    (∀ p ∈ documents.map Prod.fst, p ∈ documents'.map Prod.fst) ∧
      ∀ assigned, result = .ok assigned → AssignsAmong (documents'.map Prod.fst) assigned := by
  have hread : ∀ p ∈ (returnCollectionOnce documents).keys, p ∈ documents.map Prod.fst := by
    intro p hp
    rw [returnCollectionOnce, Dict.ofList, Dict.mem_keys_updateList] at hp
    simpa using hp
  unfold setupProfiles at hrun
  split at hrun
  · cases hrun
    refine ⟨fun p hp => hp, fun _ heq => ?_⟩
    cases heq
  · split at hrun
    · cases hrun
      refine ⟨fun p hp => hp, fun _ heq => ?_⟩
      cases heq
    · next hassign => exact setupConditional_spec ((assignProfiles_among hassign).mono hread) hrun

end Assigned

end Sc4snmp
