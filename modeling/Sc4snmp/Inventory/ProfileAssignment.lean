import Sc4snmp.Inventory.SetupPoller
import Sc4snmp.Snmp.AcceptedProfiles

/-!
# Hosts whose profiles can be assigned

`assign_profiles` looks for the patterns of the smart profiles in the fields of the target
document.  It takes for granted that the host has one, and that what a field holds is a
text; `enrich` stores numeric texts as numbers.

## Main definitions

* `MetricValue.IsText` — the values that are texts.
* `SearchesTexts env Compilable` — what `re.search` does with a pattern that compiles.
* `TargetReadable` — the fields a smart profile looks at are there to be looked at.
* `FieldsReadable` — the same of all smart profiles of a collection.

## Main results

* `assignFieldSmartProfile_returns_iff` — the step of a profile.
* `assignSmartFrom_returns_iff` — the loop over the profiles.
* `assignProfiles_returns_iff` — **the assignment returns exactly if the fields can be read**.
-/

namespace Sc4snmp

/-! ### Patterns and texts -/

/-- The text of a value that is one. -/
def MetricValue.text? : MetricValue → Option String
  | .str s => some s
  | .index (.str s) => some s
  | _ => none

/-- The value is a text. -/
def MetricValue.IsText (value : MetricValue) : Prop := value.text?.isSome = true

instance (value : MetricValue) : Decidable value.IsText :=
  inferInstanceAs (Decidable (_ = true))

/-- `re.search` with a pattern that compiles: it looks at texts and at nothing else. -/
structure SearchesTexts (env : PollerEnv) (Compilable : String → Prop) : Prop where
  onText : ∀ pattern value, Compilable pattern → value.IsText →
    ∃ found, env.search pattern value = .ok found
  onOther : ∀ pattern value, Compilable pattern → ¬ value.IsText →
    env.search pattern value = .error .typeError

/-- There is a target document, and what its state has for a field is a text unless there is
no pattern to look for. -/
def TargetReadable (target : Option (Option TargetState)) (field : String)
    (patterns : List String) : Prop :=
  ∃ found, target = some found ∧ ∀ state, found = some state →
    ∀ value, state.get? (Text.replaceChar '.' '|' field) = some (some value) →
      patterns = [] ∨ value.IsText

/-- What a profile looks at can be read. -/
def ProfileReadable (target : Option (Option TargetState)) (body : ProfileBody) : Prop :=
  ∀ condition field patterns, body.condition = some condition → condition.type = some "field" →
    condition.field = some field → condition.patterns = some patterns →
      TargetReadable target field patterns

/-- What the profiles look at can be read, if the record uses smart profiles at all. -/
def FieldsReadable (ir : InventoryRecord) (profiles : Dict String ProfileBody)
    (target : Option (Option TargetState)) : Prop :=
  ir.smartProfiles = some true →
    ∀ name body, profiles.get? name = some body → ProfileReadable target body

/-- The patterns of a profile compile. -/
def PatternsCompile (Compilable : String → Prop) (body : ProfileBody) : Prop :=
  ∀ condition patterns, body.condition = some condition → condition.patterns = some patterns →
    ∀ pattern ∈ patterns, Compilable pattern

/-! ### What the schemas say about conditions -/

section Schemas

variable {body : ProfileBody}

/-- The conditions a schema accepts. -/
theorem condition_of_accepted (h : allProfileSchemas.any (· body) = true) :
    (body.condition = none ∧ body.frequency.isSome = true) ∨ body.conditionType = some "walk" ∨
      (body.frequency.isSome = true ∧
        (body.conditionType = some "base" ∨ body.conditionType = some "mandatory")) ∨
      (body.frequency.isSome = true ∧ ∃ condition field patterns, body.condition = some condition ∧
        condition.type = some "field" ∧ condition.field = some field ∧
          condition.patterns = some patterns) := by
  obtain ⟨schema, hschema, hbody⟩ := List.any_eq_true.mp h
  simp only [allProfileSchemas, List.mem_cons, List.not_mem_nil, or_false] at hschema
  rcases hschema with rfl | rfl | rfl | rfl | rfl
  · simp only [standardProfileSchema, Bool.and_eq_true, Option.isNone_iff_eq_none] at hbody
    exact Or.inl ⟨hbody.1.2, hbody.1.1.1⟩
  · simp only [walkProfileSchema, Bool.and_eq_true, Option.any_eq_true, bareCondition] at hbody
    obtain ⟨condition, hcondition, ⟨⟨type, htype, hmem⟩, _⟩, _⟩ := hbody.1.2
    refine Or.inr (Or.inl ?_)
    rw [ProfileBody.conditionType, hcondition, Option.bind_some, htype]
    simpa using hmem
  · simp only [baseProfileSchema, Bool.and_eq_true, Option.any_eq_true, bareCondition] at hbody
    obtain ⟨condition, hcondition, ⟨⟨type, htype, hmem⟩, _⟩, _⟩ := hbody.1.2
    refine Or.inr (Or.inr (Or.inl ⟨hbody.1.1.1, ?_⟩))
    rw [ProfileBody.conditionType, hcondition, Option.bind_some, htype]
    simpa using hmem
  · simp only [smartProfileSchema, Bool.and_eq_true, Option.any_eq_true,
      decide_eq_true_eq] at hbody
    obtain ⟨condition, hcondition, ⟨htype, hfield⟩, hpatterns⟩ := hbody.1.2
    obtain ⟨field, hfield⟩ := Option.isSome_iff_exists.mp hfield
    obtain ⟨patterns, hpatterns⟩ := Option.isSome_iff_exists.mp hpatterns
    exact Or.inr (Or.inr (Or.inr
      ⟨hbody.1.1.1, condition, field, patterns, hcondition, htype, hfield, hpatterns⟩))
  · simp only [conditionalProfileSchema, Bool.and_eq_true, Option.isNone_iff_eq_none] at hbody
    exact Or.inl ⟨hbody.1.2, hbody.1.1.1⟩

/-- A profile with a condition on a field has all that the condition needs. -/
theorem field_of_accepted (h : allProfileSchemas.any (· body) = true)
    (htype : body.conditionType = some "field") :
    ∃ frequency condition field patterns, body.frequency = some frequency ∧
      body.condition = some condition ∧ condition.type = some "field" ∧
        condition.field = some field ∧ condition.patterns = some patterns := by
  rcases condition_of_accepted h with ⟨hnone, _⟩ | hwalk | ⟨_, hbase | hmandatory⟩ |
    ⟨hfrequency, condition, field, patterns, hcondition⟩
  · rw [ProfileBody.conditionType, hnone] at htype
    cases htype
  · rw [hwalk] at htype
    exact absurd htype (by decide)
  · rw [hbase] at htype
    exact absurd htype (by decide)
  · rw [hmandatory] at htype
    exact absurd htype (by decide)
  · obtain ⟨frequency, hfrequency⟩ := Option.isSome_iff_exists.mp hfrequency
    exact ⟨frequency, condition, field, patterns, hfrequency, hcondition⟩

/-- A mandatory profile has a frequency. -/
theorem frequency_of_mandatory (h : allProfileSchemas.any (· body) = true)
    (htype : body.conditionType = some "mandatory") :
    ∃ frequency, body.frequency = some frequency := by
  rw [← Option.isSome_iff_exists]
  rcases condition_of_accepted h with ⟨hnone, _⟩ | hwalk | ⟨hfrequency, _⟩ | ⟨hfrequency, _⟩
  · rw [ProfileBody.conditionType, hnone] at htype
    cases htype
  · rw [hwalk] at htype
    exact absurd htype (by decide)
  · exact hfrequency
  · exact hfrequency

end Schemas

/-! ### The loops -/

section Loops

variable {env : PollerEnv} {Compilable : String → Prop} {target : Option (Option TargetState)}

/-- The loop over the patterns of a profile. -/
theorem searchPatterns_returns_iff (henv : SearchesTexts env Compilable) {value : MetricValue}
    {frequency : ℤ} {profileName : String} {patterns : List String}
    (hpatterns : ∀ pattern ∈ patterns, Compilable pattern) (assigned : AssignedProfiles) :
    (∃ assigned', searchPatterns env value frequency profileName patterns assigned =
      .ok assigned') ↔ patterns = [] ∨ value.IsText := by
  induction patterns generalizing assigned with
  | nil => exact iff_of_true ⟨assigned, rfl⟩ (Or.inl rfl)
  | cons pattern patterns ih =>
    rw [List.forall_mem_cons] at hpatterns
    constructor
    · rintro ⟨assigned', hrun⟩
      obtain ⟨found, hfound, _⟩ := PyError.bind_eq_ok.mp hrun
      by_contra hnot
      rw [henv.onOther pattern value hpatterns.1 fun htext => hnot (Or.inr htext)] at hfound
      cases hfound
    · rintro (hnil | htext)
      · cases hnil
      · obtain ⟨found, hfound⟩ := henv.onText pattern value hpatterns.1 htext
        obtain ⟨assigned', hrun⟩ := (ih hpatterns.2 _).mpr (Or.inr htext)
        exact ⟨assigned', PyError.bind_eq_ok.mpr ⟨found, hfound, hrun⟩⟩

/-- **The step of a profile with a condition on a field.** -/
theorem assignFieldSmartProfile_returns_iff (henv : SearchesTexts env Compilable)
    {profileName field : String} {frequency : ℤ} {patterns : List String}
    (hpatterns : ∀ pattern ∈ patterns, Compilable pattern) (assigned : AssignedProfiles) :
    (∃ assigned', assignFieldSmartProfile env target profileName frequency field patterns assigned =
      .ok assigned') ↔ TargetReadable target field patterns := by
  unfold assignFieldSmartProfile TargetReadable
  split
  · simp
  · exact iff_of_true ⟨assigned, rfl⟩ ⟨none, rfl, fun _ h => (nomatch h)⟩
  · next state =>
    split
    · next value hvalue =>
      rw [searchPatterns_returns_iff henv hpatterns]
      constructor
      · rintro hread
        refine ⟨some state, rfl, fun state' hstate value' hvalue' => ?_⟩
        cases hstate
        cases hvalue.symm.trans hvalue'
        exact hread
      · rintro ⟨found, hfound, hread⟩
        cases hfound
        exact hread state rfl value hvalue
    · next hvalue =>
      refine iff_of_true ⟨assigned, rfl⟩ ⟨some state, rfl, fun state' hstate value' hvalue' => ?_⟩
      cases hstate
      exact absurd hvalue' (hvalue value')

/-- A profile that has no condition on a field is passed, or assigned as it is. -/
theorem assignSmartFrom_cons_other {profileName : String} {body : ProfileBody}
    (htype : body.conditionType ≠ some "field") (profiles : List (String × ProfileBody))
    (assigned : AssignedProfiles) :
    ∃ assigned₁, assignSmartFrom env target ((profileName, body) :: profiles) assigned =
      assignSmartFrom env target profiles assigned₁ := by
  rw [assignSmartFrom]
  split
  · next condition _ hcondition =>
    have hfield : condition.type ≠ some "field" := by
      rwa [ProfileBody.conditionType, hcondition] at htype
    split
    · exact ⟨assigned, rfl⟩
    · split
      · exact ⟨_, rfl⟩
      · split
        · next heq _ _ => exact absurd heq hfield
        · exact ⟨assigned, rfl⟩
  · exact ⟨assigned, rfl⟩

/-- A profile that has one is left to the step. -/
theorem assignSmartFrom_cons_field {profileName field : String} {body : ProfileBody}
    {condition : ProfileCondition} {frequency : ℤ} {patterns : List String}
    (hfrequency : body.frequency = some frequency) (hcondition : body.condition = some condition)
    (htype : condition.type = some "field") (hfield : condition.field = some field)
    (hpatterns : condition.patterns = some patterns) (profiles : List (String × ProfileBody))
    (assigned : AssignedProfiles) :
    assignSmartFrom env target ((profileName, body) :: profiles) assigned =
      (assignFieldSmartProfile env target profileName frequency field patterns assigned >>=
        assignSmartFrom env target profiles) := by
  have hvalid : isSmartProfileValid body = true := by
    simp [isSmartProfileValid, hfrequency, hcondition, htype, hfield, hpatterns]
  rw [assignSmartFrom]
  simp [hfrequency, hcondition, hvalid, htype, hfield, hpatterns]

/-- **The loop over the profiles returns exactly if what they look at can be read.** -/
theorem assignSmartFrom_returns_iff (henv : SearchesTexts env Compilable)
    {profiles : List (String × ProfileBody)}
    (haccepted : ∀ p ∈ profiles, allProfileSchemas.any (· p.2) = true)
    (hcompile : ∀ p ∈ profiles, PatternsCompile Compilable p.2) (assigned : AssignedProfiles) :
    (∃ assigned', assignSmartFrom env target profiles assigned = .ok assigned') ↔
      ∀ p ∈ profiles, ProfileReadable target p.2 := by
  induction profiles generalizing assigned with
  | nil => exact iff_of_true ⟨assigned, rfl⟩ (by simp)
  | cons profile profiles ih =>
    obtain ⟨profileName, body⟩ := profile
    rw [List.forall_mem_cons] at haccepted hcompile ⊢
    by_cases htype : body.conditionType = some "field"
    · obtain ⟨frequency, condition, field, patterns, hfrequency, hcondition, hcfield, hfield,
        hpatterns⟩ := field_of_accepted haccepted.1 htype
      have hstep : (∃ assigned₁, assignFieldSmartProfile env target profileName frequency field
          patterns assigned = .ok assigned₁) ↔ TargetReadable target field patterns :=
        assignFieldSmartProfile_returns_iff henv
          (hcompile.1 condition patterns hcondition hpatterns) assigned
      have hread : ProfileReadable target body ↔ TargetReadable target field patterns := by
        constructor
        · exact fun h => h condition field patterns hcondition hcfield hfield hpatterns
        · intro h condition' field' patterns' hcondition' _ hfield' hpatterns'
          cases hcondition.symm.trans hcondition'
          cases hfield.symm.trans hfield'
          cases hpatterns.symm.trans hpatterns'
          exact h
      rw [assignSmartFrom_cons_field hfrequency hcondition hcfield hfield hpatterns, hread, ← hstep]
      constructor
      · rintro ⟨assigned', hrun⟩
        obtain ⟨assigned₁, hfirst, hrest⟩ := PyError.bind_eq_ok.mp hrun
        exact ⟨⟨assigned₁, hfirst⟩, (ih haccepted.2 hcompile.2 assigned₁).mp ⟨assigned', hrest⟩⟩
      · rintro ⟨⟨assigned₁, hfirst⟩, hrest⟩
        obtain ⟨assigned', hrun⟩ := (ih haccepted.2 hcompile.2 assigned₁).mpr hrest
        exact ⟨assigned', PyError.bind_eq_ok.mpr ⟨assigned₁, hfirst, hrun⟩⟩
    · obtain ⟨assigned₁, hpass⟩ :=
        @assignSmartFrom_cons_other env target profileName body htype profiles assigned
      have hread : ProfileReadable target body := by
        intro condition field patterns hcondition hcfield
        rw [ProfileBody.conditionType, hcondition] at htype
        exact absurd hcfield htype
      rw [hpass, ih haccepted.2 hcompile.2]
      exact (and_iff_right hread).symm

/-- The mandatory profiles are always assigned. -/
theorem assignMandatory_returns {profiles : List (String × ProfileBody)}
    (haccepted : ∀ p ∈ profiles, allProfileSchemas.any (· p.2) = true)
    (assigned : AssignedProfiles) :
    ∃ assigned', assignMandatory profiles assigned = .ok assigned' := by
  induction profiles generalizing assigned with
  | nil => exact ⟨assigned, rfl⟩
  | cons profile profiles ih =>
    obtain ⟨profileName, body⟩ := profile
    rw [List.forall_mem_cons] at haccepted
    rw [assignMandatory]
    split
    · next htype =>
      obtain ⟨frequency, hfrequency⟩ := frequency_of_mandatory haccepted.1 htype
      rw [hfrequency]
      exact ih haccepted.2 _
    · exact ih haccepted.2 assigned

end Loops

/-! ### The assignment -/

/-- **The assignment of a host's profiles returns exactly if what the smart profiles look at
can be read.** -/
theorem assignProfiles_returns_iff {env : PollerEnv} {Compilable : String → Prop}
    (henv : SearchesTexts env Compilable) (ir : InventoryRecord)
    {profiles : Dict String ProfileBody} (haccepted : ProfileCollection.Accepted profiles)
    (hcompile : ∀ name body, profiles.get? name = some body → PatternsCompile Compilable body)
    (target : Option (Option TargetState)) :
    (∃ result, assignProfiles env ir profiles target = .ok result) ↔
      FieldsReadable ir profiles target := by
  have haccepted' : ∀ p ∈ profiles.entries, allProfileSchemas.any (· p.2) = true :=
    fun p hp => haccepted p.1 p.2 (Dict.mem_entries_iff.mp hp)
  have hcompile' : ∀ p ∈ profiles.entries, PatternsCompile Compilable p.2 :=
    fun p hp => hcompile p.1 p.2 (Dict.mem_entries_iff.mp hp)
  have hsmart : (∃ smart, assignSmartProfiles env ir profiles target = .ok smart) ↔
      FieldsReadable ir profiles target := by
    unfold assignSmartProfiles FieldsReadable
    split
    · next hir =>
      rw [assignSmartFrom_returns_iff henv haccepted' hcompile']
      constructor
      · exact fun h _ name body hbody => h (name, body) (Dict.mem_entries_iff.mpr hbody)
      · exact fun h p hp => h hir p.1 p.2 (Dict.mem_entries_iff.mp hp)
    · next hir => exact iff_of_true ⟨_, rfl⟩ fun h => absurd h hir
  rw [← hsmart]
  constructor
  · rintro ⟨result, hrun⟩
    obtain ⟨smart, hfirst, _⟩ := PyError.bind_eq_ok.mp hrun
    exact ⟨smart, hfirst⟩
  · rintro ⟨smart, hfirst⟩
    obtain ⟨assigned', hmandatory⟩ := assignMandatory_returns haccepted'
      (checkProfilesType profiles ir.profiles (smart, [])).1
    refine ⟨(assigned', (checkProfilesType profiles ir.profiles (smart, [])).2), ?_⟩
    exact PyError.bind_eq_ok.mpr
      ⟨smart, hfirst, PyError.bind_eq_ok.mpr ⟨assigned', hmandatory, rfl⟩⟩

/-! ### A host with a numeric name -/

/-- A pattern of letters. -/
def Letters (pattern : String) : Prop := ∀ c ∈ pattern.toList, c.isAlpha = true

/-- A text of letters, as a pattern, is looked for as it is. -/
def literalSearch (pattern : String) (value : MetricValue) : Except PyError Bool :=
  match value.text? with
  | some text => .ok (Text.contains text pattern)
  | none => .error .typeError

/-- The settings of a task that polls the base profiles. -/
def literalEnv : PollerEnv where
  pollBaseProfiles := true
  search := literalSearch
  query := fun _ _ => .ok []

theorem searchesTexts_literalEnv : SearchesTexts literalEnv Letters where
  onText pattern value _ htext := by
    obtain ⟨text, htext⟩ := Option.isSome_iff_exists.mp htext
    exact ⟨Text.contains text pattern, by simp [literalEnv, literalSearch, htext]⟩
  onOther pattern value _ htext := by
    have hnone : value.text? = none := by simpa [MetricValue.IsText] using htext
    simp [literalEnv, literalSearch, hnone]

/-- A smart profile for hosts with a certain name, and a static profile. -/
def routerConfig : Dict String ProfileBody :=
  Dict.ofList
    [("routers", { frequency := some 60
                   varBinds := some [[.str "IF-MIB"]]
                   condition := some { type := some "field", field := some "SNMPv2-MIB.sysName",
                                       patterns := some ["Router"] } }),
      ("uptime", { frequency := some 30, varBinds := some [[.str "SNMPv2-MIB"]] })]

/-- A host of the inventory that is to be polled for the static profile. -/
def routerRecord : InventoryRecord where
  port := 161
  address := some "10.0.0.1"
  version := some "2c"
  community := some "public"
  secret := none
  securityEngine := none
  walkInterval := 42000
  maxOidToProcess := none
  profiles := ["uptime"]
  smartProfiles := some true
  delete := some false
  group := none

/-- What the state of a host holds when its name is `12345`. -/
def numericNameState : TargetState :=
  Dict.ofList [("SNMPv2-MIB|sysName", some (valueAsBest "12345"))]

theorem accepted_routerConfig : ProfileCollection.Accepted routerConfig := by
  intro name body hbody
  have hmem : (name, body) ∈ routerConfig.entries := Dict.mem_entries_iff.mpr hbody
  rcases List.mem_cons.mp hmem with heq | hmem
  · obtain ⟨rfl, rfl⟩ := Prod.mk.inj heq
    rfl
  · obtain ⟨rfl, rfl⟩ := Prod.mk.inj (List.mem_singleton.mp hmem)
    rfl

theorem patternsCompile_routerConfig (name : String) (body : ProfileBody)
    (hbody : routerConfig.get? name = some body) : PatternsCompile Letters body := by
  have hmem : (name, body) ∈ routerConfig.entries := Dict.mem_entries_iff.mpr hbody
  intro condition patterns hcondition hpatterns pattern hpattern
  rcases List.mem_cons.mp hmem with heq | hmem
  · obtain ⟨rfl, rfl⟩ := Prod.mk.inj heq
    cases hcondition
    cases hpatterns
    rw [List.mem_singleton.mp hpattern]
    rw [Letters, show "Router".toList = ['R', 'o', 'u', 't', 'e', 'r'] from rfl]
    simp
  · obtain ⟨rfl, rfl⟩ := Prod.mk.inj (List.mem_singleton.mp hmem)
    cases hcondition

theorem assignProfiles_returns_iff_routerConfig :
    (∃ result, assignProfiles literalEnv routerRecord routerConfig (some (some numericNameState)) =
      .ok result) ↔ FieldsReadable routerRecord routerConfig (some (some numericNameState)) :=
  assignProfiles_returns_iff searchesTexts_literalEnv routerRecord accepted_routerConfig
    patternsCompile_routerConfig _

/-- **A host without a target document, and one whose name is a number, get no profile at all.** -/
theorem assignProfiles_raises :
    SearchesTexts literalEnv Letters ∧ ProfileCollection.Accepted routerConfig ∧
      (∀ name body, routerConfig.get? name = some body → PatternsCompile Letters body) ∧
      assignProfiles literalEnv routerRecord routerConfig none = .error .typeError ∧
      assignProfiles literalEnv routerRecord routerConfig (some (some numericNameState)) =
        .error .typeError := by
  refine ⟨searchesTexts_literalEnv, accepted_routerConfig, patternsCompile_routerConfig, ?_, ?_⟩
  · rfl
  · decide +kernel

end Sc4snmp
