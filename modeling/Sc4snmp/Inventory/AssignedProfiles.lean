import Sc4snmp.Inventory.SetupPoller
import Sc4snmp.Lib.Buckets

/-!
# The profiles a host is assigned

Which profiles `inventory_setup_poller` assigns to which frequency: each loop of the
assignment adds some profiles under some frequencies, and never takes one away.  A profile
is assigned at its own frequency, and a conditional one as the profile that is generated
for the host, under its tag.

## Main definitions

* `Adds` — what one profile list has more than another.
* `PolledAsIs` — a profile is for a host, as it is.
* `PolledUnderTag` — a profile is for a host, under a tag.

## Main results

* `adds_assignProfiles` — the profiles that are assigned as they are.
* `adds_setupProfiles` — **all profiles that are assigned**.
* `mem_setupConditional` — the profiles that are generated are in the collection.
-/

namespace Sc4snmp

/-! ### Additions -/

/-- A list of profiles by frequency has some more than another. -/
def Adds (assigned assigned' : AssignedProfiles) (Q : ℤ → String → Prop) : Prop :=
  ∃ added, assigned' = Buckets.addAll assigned added ∧ ∀ t p, (t, p) ∈ added ↔ Q t p

namespace Adds

variable {assigned assigned₁ assigned' : AssignedProfiles} {Q R : ℤ → String → Prop}

theorem none (assigned : AssignedProfiles) : Adds assigned assigned fun _ _ => False :=
  ⟨[], rfl, by simp⟩

theorem single (assigned : AssignedProfiles) (frequency : ℤ) (profileName : String) :
    Adds assigned (addProfileToAssignedList assigned frequency profileName)
      fun t p => t = frequency ∧ p = profileName :=
  ⟨[(frequency, profileName)], rfl, by simp⟩

theorem trans (h : Adds assigned assigned₁ Q) (h' : Adds assigned₁ assigned' R) :
    Adds assigned assigned' fun t p => Q t p ∨ R t p := by
  obtain ⟨added, rfl, hadded⟩ := h
  obtain ⟨added', rfl, hadded'⟩ := h'
  refine ⟨added ++ added', (Buckets.addAll_append _ _ _).symm, fun t p => ?_⟩
  rw [List.mem_append, hadded, hadded']

theorem congr (h : Adds assigned assigned' Q) (hQ : ∀ t p, Q t p ↔ R t p) :
    Adds assigned assigned' R := by
  obtain ⟨added, hassigned, hadded⟩ := h
  exact ⟨added, hassigned, fun t p => (hadded t p).trans (hQ t p)⟩

/-- What is assigned in the end. -/
theorem holds_iff (h : Adds Dict.empty assigned Q) {t : ℤ} {p : String} :
    Buckets.Holds assigned t p ↔ Q t p := by
  obtain ⟨added, rfl, hadded⟩ := h
  rw [Buckets.holds_addAll, hadded]
  simp

/-- No frequency is without a profile. -/
theorem mem_keys_iff (h : Adds Dict.empty assigned Q) {t : ℤ} :
    t ∈ assigned.keys ↔ ∃ p, Q t p := by
  obtain ⟨added, rfl, hadded⟩ := h
  simp [Buckets.mem_keys_addAll, ← hadded]

end Adds

/-! ### The profiles that are assigned as they are -/

/-- The state of a target has a text for a field in which a pattern is found. -/
def FieldMatches (env : PollerEnv) (target : Option (Option TargetState)) (field : String)
    (patterns : List String) : Prop :=
  ∃ state value, target = some (some state) ∧
    state.get? (Text.replaceChar '.' '|' field) = some (some value) ∧
      ∃ pattern ∈ patterns, env.search pattern value = .ok true

/-- A smart profile is for a host, of which it is known which fields match which patterns. -/
def SmartlyPolled (env : PollerEnv) (Matches : String → List String → Prop) (body : ProfileBody) :
    Prop :=
  ∃ condition, body.condition = some condition ∧
    (condition.type = some "base" ∧ env.pollBaseProfiles = true ∨
      condition.type = some "field" ∧ ∃ field patterns, condition.field = some field ∧
        condition.patterns = some patterns ∧ Matches field patterns)

/-- A profile the inventory lists is polled as it is. -/
def StaticallyPolled (ir : InventoryRecord) (name : String) (body : ProfileBody) : Prop :=
  name ∈ ir.profiles ∧ body.conditionType ≠ some "walk" ∧ isConditional body = false

/-- A profile is for a host, as it is. -/
def PolledAsIs (env : PollerEnv) (ir : InventoryRecord) (Matches : String → List String → Prop)
    (name : String) (body : ProfileBody) : Prop :=
  ir.smartProfiles = some true ∧ SmartlyPolled env Matches body ∨ StaticallyPolled ir name body ∨
    body.conditionType = some "mandatory"

section Loops

/-- A profile of that name is the first, or is one of the others. -/
theorem exists_body_cons {p name : String} {body : ProfileBody}
    {profiles : List (String × ProfileBody)} {Q : ProfileBody → Prop} :
    (∃ body', (p, body') ∈ (name, body) :: profiles ∧ Q body') ↔
      (p = name ∧ Q body) ∨ ∃ body', (p, body') ∈ profiles ∧ Q body' := by
  simp only [List.mem_cons, Prod.mk.injEq, or_and_right, exists_or, and_assoc, exists_and_left,
    exists_eq_left]

variable {env : PollerEnv} {target : Option (Option TargetState)}
  {assigned assigned' : AssignedProfiles}

theorem adds_searchPatterns {value : MetricValue} {frequency : ℤ} {profileName : String}
    {patterns : List String}
    (h : searchPatterns env value frequency profileName patterns assigned = .ok assigned') :
    Adds assigned assigned' fun t p => (t = frequency ∧ p = profileName) ∧
      ∃ pattern ∈ patterns, env.search pattern value = .ok true := by
  induction patterns generalizing assigned with
  | nil =>
    cases h
    exact (Adds.none _).congr (by simp)
  | cons pattern patterns ih =>
    obtain ⟨found, hfound, h⟩ := PyError.bind_eq_ok.mp h
    cases found with
    | true =>
      refine ((Adds.single assigned frequency profileName).trans (ih h)).congr fun t p => ?_
      simp only [List.exists_mem_cons_iff, hfound]
      tauto
    | false => exact (ih h).congr (by simp [hfound])

theorem adds_assignFieldSmartProfile {profileName field : String} {frequency : ℤ}
    {patterns : List String}
    (h : assignFieldSmartProfile env target profileName frequency field patterns assigned =
      .ok assigned') :
    Adds assigned assigned' fun t p => (t = frequency ∧ p = profileName) ∧
      FieldMatches env target field patterns := by
  unfold assignFieldSmartProfile at h
  split at h
  · cases h
  · cases h
    exact (Adds.none assigned).congr (by simp [FieldMatches])
  · next state =>
    split at h
    · next value hvalue =>
      refine (adds_searchPatterns h).congr fun t p => and_congr_right fun _ => ?_
      simp [FieldMatches, hvalue]
    · next hvalue =>
      cases h
      refine (Adds.none assigned).congr fun t p => iff_of_false id ?_
      rintro ⟨-, state', value, hstate, hget, -⟩
      cases hstate
      exact hvalue value hget

/-- One smart profile. -/
theorem adds_assignSmartFrom_cons {profileName : String} {body : ProfileBody}
    {profiles : List (String × ProfileBody)}
    (h : assignSmartFrom env target ((profileName, body) :: profiles) assigned = .ok assigned') :
    ∃ assigned₁, assignSmartFrom env target profiles assigned₁ = .ok assigned' ∧
      Adds assigned assigned₁ fun t p => (body.frequency = some t ∧ p = profileName) ∧
        SmartlyPolled env (FieldMatches env target) body := by
  rw [assignSmartFrom] at h
  have hpass : ¬ SmartlyPolled env (FieldMatches env target) body →
      Adds assigned assigned fun t p => (body.frequency = some t ∧ p = profileName) ∧
        SmartlyPolled env (FieldMatches env target) body :=
    fun hnot => (Adds.none assigned).congr fun t p => iff_of_false id fun ha => hnot ha.2
  split at h
  · next frequency condition hfrequency hcondition =>
    have hown : ∀ t p, t = frequency ∧ p = profileName ↔
        body.frequency = some t ∧ p = profileName := by
      intro t p
      rw [hfrequency, Option.some_inj, eq_comm]
    split at h
    · next hinvalid =>
      -- the checks refuse only what asks for nothing
      refine ⟨assigned, h, hpass ?_⟩
      rintro ⟨condition', hcondition', hasks⟩
      cases hcondition.symm.trans hcondition'
      rcases hasks with ⟨htype, -⟩ | ⟨htype, field, patterns, hfield, hpatterns, -⟩
      · simp [isSmartProfileValid, hfrequency, hcondition, htype] at hinvalid
      · simp [isSmartProfileValid, hfrequency, hcondition, htype, hfield, hpatterns] at hinvalid
    · split at h
      · next hbase =>
        rw [Bool.and_eq_true, decide_eq_true_eq] at hbase
        refine ⟨_, h, (Adds.single assigned frequency profileName).congr fun t p => ?_⟩
        rw [hown]
        exact (and_iff_left ⟨condition, hcondition, Or.inl hbase⟩).symm
      · next hbase =>
        rw [Bool.and_eq_true, decide_eq_true_eq] at hbase
        split at h
        · next field patterns htype hfield hpatterns =>
          obtain ⟨assigned₁, hfirst, hrest⟩ := PyError.bind_eq_ok.mp h
          refine ⟨assigned₁, hrest, (adds_assignFieldSmartProfile hfirst).congr fun t p => ?_⟩
          rw [hown]
          refine and_congr_right fun _ => ⟨fun hmatches => ?_, ?_⟩
          · exact ⟨condition, hcondition, Or.inr ⟨htype, field, patterns, hfield, hpatterns,
              hmatches⟩⟩
          · rintro ⟨condition', hcondition', hasks⟩
            cases hcondition.symm.trans hcondition'
            rcases hasks with hasks | ⟨-, field', patterns', hfield', hpatterns', hmatches⟩
            · exact absurd hasks hbase
            · cases hfield.symm.trans hfield'
              cases hpatterns.symm.trans hpatterns'
              exact hmatches
        · next hother =>
          refine ⟨assigned, h, hpass ?_⟩
          rintro ⟨condition', hcondition', hasks⟩
          cases hcondition.symm.trans hcondition'
          rcases hasks with hasks | ⟨htype, field, patterns, hfield, hpatterns, -⟩
          · exact hbase hasks
          · exact hother field patterns htype hfield hpatterns
  · next hnone =>
    refine ⟨assigned, h, (Adds.none assigned).congr fun t p => iff_of_false id ?_⟩
    rintro ⟨⟨hfrequency, -⟩, condition, hcondition, -⟩
    exact hnone t condition hfrequency hcondition

theorem adds_assignSmartFrom {profiles : List (String × ProfileBody)}
    (h : assignSmartFrom env target profiles assigned = .ok assigned') :
    Adds assigned assigned' fun t p => ∃ body, (p, body) ∈ profiles ∧ body.frequency = some t ∧
      SmartlyPolled env (FieldMatches env target) body := by
  induction profiles generalizing assigned with
  | nil =>
    cases h
    exact (Adds.none _).congr (by simp)
  | cons profile profiles ih =>
    obtain ⟨profileName, body⟩ := profile
    obtain ⟨assigned₁, hrest, hfirst⟩ := adds_assignSmartFrom_cons h
    refine (hfirst.trans (ih hrest)).congr fun t p => ?_
    rw [exists_body_cons, and_comm (a := body.frequency = some t), and_assoc]

/-- The conditional profiles among some names. -/
def conditionalOf (profiles : Dict String ProfileBody) (names : List String) :
    List (String × ProfileBody) :=
  names.filterMap fun name =>
    ((profiles.get? name).filter isConditional).map fun body => (name, body)

/-- One name of the inventory. -/
theorem checkProfilesType_cons (profiles : Dict String ProfileBody) (name : String)
    (names : List String) (assigned : AssignedProfiles) (computed : List (String × ProfileBody)) :
    ∃ assigned₁, checkProfilesType profiles (name :: names) (assigned, computed) =
        checkProfilesType profiles names (assigned₁, computed ++ conditionalOf profiles [name]) ∧
      Adds assigned assigned₁ fun t p => p = name ∧ ∃ body, profiles.get? name = some body ∧
        body.frequency = some t ∧ body.conditionType ≠ some "walk" ∧
          isConditional body = false := by
  rw [checkProfilesType]
  split
  · next hnone =>
    refine ⟨assigned, ?_, (Adds.none assigned).congr (by simp [hnone])⟩
    simp [conditionalOf, hnone]
  · next body hbody =>
    have hcomputed : conditionalOf profiles [name] =
        if isConditional body = true then [(name, body)] else [] := by
      by_cases hconditional : isConditional body = true <;>
        simp [conditionalOf, hbody, Option.filter_some, hconditional]
    rw [hcomputed]
    split
    · next hwalk =>
      rw [Bool.and_eq_true, decide_eq_true_eq] at hwalk
      -- a profile with a condition has no `conditions` that are looked at
      have hnot : ¬ isConditional body = true := by
        rw [isConditional, ← Option.not_isSome, hwalk.1]
        exact Bool.false_ne_true
      rw [if_neg hnot, List.append_nil]
      exact ⟨assigned, rfl, (Adds.none assigned).congr (by simp [hbody, hwalk.2])⟩
    · next hwalk =>
      split
      · next hconditional =>
        exact ⟨assigned, rfl, (Adds.none assigned).congr (by simp [hbody, hconditional])⟩
      · next hconditional =>
        rw [List.append_nil]
        split
        · next hfrequency =>
          exact ⟨assigned, rfl, (Adds.none assigned).congr (by simp [hbody, hfrequency])⟩
        · next frequency hfrequency =>
          have hnotWalk : body.conditionType ≠ some "walk" := by
            intro htype
            rw [Bool.and_eq_true, decide_eq_true_eq, ProfileBody.conditionType] at hwalk
            obtain ⟨condition, hcondition, htype⟩ := Option.bind_eq_some_iff.mp htype
            exact hwalk ⟨by rw [hcondition]; rfl, by rw [hcondition]; exact htype⟩
          refine ⟨_, rfl, (Adds.single assigned frequency name).congr fun t p => ?_⟩
          constructor
          · rintro ⟨rfl, rfl⟩
            exact ⟨rfl, body, hbody, hfrequency, hnotWalk, Bool.eq_false_iff.mpr hconditional⟩
          · rintro ⟨rfl, body', hbody', ht, -⟩
            cases hbody.symm.trans hbody'
            exact ⟨Option.some.inj (ht.symm.trans hfrequency), rfl⟩

theorem adds_checkProfilesType (profiles : Dict String ProfileBody) (names : List String)
    (assigned : AssignedProfiles) (computed : List (String × ProfileBody)) :
    Adds assigned (checkProfilesType profiles names (assigned, computed)).1 (fun t p =>
        ∃ body, profiles.get? p = some body ∧ body.frequency = some t ∧ p ∈ names ∧
          body.conditionType ≠ some "walk" ∧ isConditional body = false) ∧
      (checkProfilesType profiles names (assigned, computed)).2 =
        computed ++ conditionalOf profiles names := by
  induction names generalizing assigned computed with
  | nil => exact ⟨(Adds.none assigned).congr (by simp), (List.append_nil _).symm⟩
  | cons name names ih =>
    obtain ⟨assigned₁, hstep, hfirst⟩ :=
      checkProfilesType_cons profiles name names assigned computed
    obtain ⟨hrest, hcomputed⟩ := ih assigned₁ (computed ++ conditionalOf profiles [name])
    rw [hstep]
    refine ⟨(hfirst.trans hrest).congr fun t p => ?_, ?_⟩
    · constructor
      · rintro (⟨rfl, body, hbody, ht, hasks⟩ | ⟨body, hbody, ht, hmem, hasks⟩)
        · exact ⟨body, hbody, ht, List.mem_cons_self, hasks⟩
        · exact ⟨body, hbody, ht, List.mem_cons_of_mem _ hmem, hasks⟩
      · rintro ⟨body, hbody, ht, hmem, hasks⟩
        rcases List.mem_cons.mp hmem with rfl | hmem
        · exact Or.inl ⟨rfl, body, hbody, ht, hasks⟩
        · exact Or.inr ⟨body, hbody, ht, hmem, hasks⟩
    · rw [hcomputed, List.append_assoc, conditionalOf, conditionalOf, conditionalOf,
        ← List.filterMap_append, List.singleton_append]

theorem adds_assignMandatory {profiles : List (String × ProfileBody)}
    (h : assignMandatory profiles assigned = .ok assigned') :
    Adds assigned assigned' fun t p => ∃ body, (p, body) ∈ profiles ∧ body.frequency = some t ∧
      body.conditionType = some "mandatory" := by
  induction profiles generalizing assigned with
  | nil =>
    cases h
    exact (Adds.none _).congr (by simp)
  | cons profile profiles ih =>
    obtain ⟨profileName, body⟩ := profile
    rw [assignMandatory] at h
    split at h
    · next htype =>
      split at h
      · cases h
      · next frequency hfrequency =>
        refine ((Adds.single assigned frequency profileName).trans (ih h)).congr fun t p => ?_
        rw [exists_body_cons, hfrequency, Option.some_inj, and_iff_left htype, and_comm,
          eq_comm (a := frequency)]
    · next htype =>
      refine (ih h).congr fun t p => ?_
      rw [exists_body_cons]
      exact (or_iff_right fun hfirst => htype hfirst.2.2).symm

end Loops

/-- **The profiles that are assigned as they are**, and the conditional ones that are left. -/
theorem adds_assignProfiles {env : PollerEnv} {ir : InventoryRecord}
    {profiles : Dict String ProfileBody} {target : Option (Option TargetState)}
    {assigned : AssignedProfiles} {computed : List (String × ProfileBody)}
    (h : assignProfiles env ir profiles target = .ok (assigned, computed)) :
    Adds Dict.empty assigned (fun t p => ∃ body, profiles.get? p = some body ∧
        body.frequency = some t ∧ PolledAsIs env ir (FieldMatches env target) p body) ∧
      computed = conditionalOf profiles ir.profiles := by
  obtain ⟨smart, hsmart, h⟩ := PyError.bind_eq_ok.mp h
  obtain ⟨assigned₁, hmandatory, h⟩ := PyError.bind_eq_ok.mp h
  cases h
  obtain ⟨hstatic, hcomputed⟩ := adds_checkProfilesType profiles ir.profiles smart []
  refine ⟨?_, hcomputed.trans (List.nil_append _)⟩
  have hfirst : Adds Dict.empty smart fun t p => ∃ body, profiles.get? p = some body ∧
      body.frequency = some t ∧ ir.smartProfiles = some true ∧
        SmartlyPolled env (FieldMatches env target) body := by
    unfold assignSmartProfiles at hsmart
    split at hsmart
    · next hir =>
      refine (adds_assignSmartFrom hsmart).congr fun t p => exists_congr fun body => ?_
      rw [Dict.mem_entries_iff, hir]
      simp
    · next hir =>
      cases hsmart
      exact (Adds.none _).congr (by simp [hir])
  refine ((hfirst.trans hstatic).trans (adds_assignMandatory hmandatory)).congr fun t p => ?_
  simp only [Dict.mem_entries_iff, PolledAsIs, StaticallyPolled, ← exists_or]
  refine exists_congr fun body => ?_
  tauto

/-! ### The profiles that are generated -/

/-- A conditional profile is for a host, under a tag. -/
def PolledUnderTag (env : PollerEnv) (ir : InventoryRecord) (address : String) (tag : String)
    (name : String) (body : ProfileBody) : Prop :=
  tag = profileTag name address ∧ name ∈ ir.profiles ∧ isConditional body = true ∧
    ∃ generated, generateConditionalProfile env body address = .ok generated

theorem mem_conditionalOf {profiles : Dict String ProfileBody} {names : List String} {name : String}
    {body : ProfileBody} : (name, body) ∈ conditionalOf profiles names ↔
      name ∈ names ∧ profiles.get? name = some body ∧ isConditional body = true := by
  simp only [conditionalOf, List.mem_filterMap, Option.map_eq_some_iff, Option.filter_eq_some_iff,
    Prod.mk.injEq]
  constructor
  · rintro ⟨name', hmem, body', ⟨hbody, hconditional⟩, rfl, rfl⟩
    exact ⟨hmem, hbody, hconditional⟩
  · rintro ⟨hmem, hbody, hconditional⟩
    exact ⟨name, hmem, body, ⟨hbody, hconditional⟩, rfl, rfl⟩

section Generated

variable {env : PollerEnv} {address : String}

theorem adds_setupConditional {computed documents documents' : List (String × ProfileBody)}
    {assigned assigned' : AssignedProfiles}
    (h : setupConditional env address computed documents assigned = (documents', .ok assigned')) :
    Adds assigned assigned' fun t p => ∃ name body, (name, body) ∈ computed ∧
      body.frequency = some t ∧ p = profileTag name address ∧
        ∃ generated, generateConditionalProfile env body address = .ok generated := by
  induction computed generalizing documents assigned with
  | nil =>
    cases h
    exact (Adds.none _).congr (by simp)
  | cons profile computed ih =>
    obtain ⟨name, body⟩ := profile
    have hcons : ∀ t p, (∃ name' body', (name', body') ∈ (name, body) :: computed ∧
          body'.frequency = some t ∧ p = profileTag name' address ∧
            ∃ generated, generateConditionalProfile env body' address = .ok generated) ↔
        (body.frequency = some t ∧ p = profileTag name address ∧
            ∃ generated, generateConditionalProfile env body address = .ok generated) ∨
          ∃ name' body', (name', body') ∈ computed ∧ body'.frequency = some t ∧
            p = profileTag name' address ∧
              ∃ generated, generateConditionalProfile env body' address = .ok generated := by
      intro t p
      simp only [exists_body_cons, exists_or, exists_eq_left]
    unfold setupConditional at h
    split at h
    · next err herr =>
      -- a profile that cannot be generated is passed over
      refine (ih h).congr fun t p => ?_
      rw [hcons, herr]
      simp
    · next generated hgenerated =>
      dsimp only at h
      split at h
      · cases h
      · next frequency hfrequency =>
        refine ((Adds.single assigned frequency _).trans (ih h)).congr fun t p => ?_
        rw [hcons, hgenerated, hfrequency, Option.some_inj, eq_comm]
        simp

/-- A document that is written is read under its tag. -/
theorem mem_replaceProfile {tag : String} {body : ProfileBody}
    {documents : List (String × ProfileBody)} :
    (tag, body) ∈ replaceProfile tag body documents := by
  induction documents with
  | nil => exact List.mem_singleton_self _
  | cons document documents ih =>
    unfold replaceProfile
    split
    · exact List.mem_cons_self
    · exact List.mem_cons_of_mem _ ih

/-- A document of another tag is left. -/
theorem mem_replaceProfile_of_mem {tag : String} {body : ProfileBody}
    {documents : List (String × ProfileBody)} {document : String × ProfileBody}
    (hne : document.1 = tag → document.2 = body) (hmem : document ∈ documents) :
    document ∈ replaceProfile tag body documents := by
  induction documents with
  | nil => cases hmem
  | cons first documents ih =>
    unfold replaceProfile
    rcases List.mem_cons.mp hmem with rfl | hmem
    · split
      · next heq => exact List.mem_cons.mpr (Or.inl (Prod.ext heq.1 (hne heq.1)))
      · exact List.mem_cons_self
    · split
      · exact List.mem_cons_of_mem _ hmem
      · exact List.mem_cons_of_mem _ (ih hmem)

/-- Names make different tags for one address. -/
theorem profileTag_injective (address : String) :
    Function.Injective fun name => profileTag name address := by
  intro name name' h
  simp only [profileTag] at h
  rwa [String.append_left_inj, String.append_left_inj] at h

/-- A document stays, unless another is generated under its tag. -/
theorem mem_setupConditional_of_mem {computed documents documents' : List (String × ProfileBody)}
    {assigned : AssignedProfiles} {result : Except PyError AssignedProfiles}
    {document : String × ProfileBody}
    (hsame : ∀ name body generated, (name, body) ∈ computed →
      generateConditionalProfile env body address = .ok generated →
        document.1 = profileTag name address → document.2 = generated)
    (hmem : document ∈ documents)
    (h : setupConditional env address computed documents assigned = (documents', result)) :
    document ∈ documents' := by
  induction computed generalizing documents assigned with
  | nil =>
    cases h
    exact hmem
  | cons profile computed ih =>
    obtain ⟨name, body⟩ := profile
    have hrest : ∀ name' body' generated, (name', body') ∈ computed →
        generateConditionalProfile env body' address = .ok generated →
          document.1 = profileTag name' address → document.2 = generated :=
      fun name' body' generated hmem' => hsame name' body' generated (List.mem_cons_of_mem _ hmem')
    unfold setupConditional at h
    split at h
    · exact ih hrest hmem h
    · next generated hgenerated =>
      have hkept := mem_replaceProfile_of_mem
        (hsame name body generated List.mem_cons_self hgenerated) hmem
      dsimp only at h
      split at h
      · cases h
        exact hkept
      · exact ih hrest hkept h

/-- **The profiles that are generated are in the collection.** -/
theorem mem_setupConditional {computed documents documents' : List (String × ProfileBody)}
    {assigned assigned' : AssignedProfiles}
    (hfunctional : ∀ name body body', (name, body) ∈ computed → (name, body') ∈ computed →
      body = body')
    (h : setupConditional env address computed documents assigned = (documents', .ok assigned'))
    {name : String} {body generated : ProfileBody} (hmem : (name, body) ∈ computed)
    (hgenerated : generateConditionalProfile env body address = .ok generated) :
    (profileTag name address, generated) ∈ documents' := by
  induction computed generalizing documents assigned with
  | nil => cases hmem
  | cons profile computed ih =>
    obtain ⟨first, firstBody⟩ := profile
    have hrest : ∀ name body body', (name, body) ∈ computed → (name, body') ∈ computed →
        body = body' := fun name body body' hmem hmem' =>
      hfunctional name body body' (List.mem_cons_of_mem _ hmem) (List.mem_cons_of_mem _ hmem')
    unfold setupConditional at h
    rcases List.mem_cons.mp hmem with heq | hlater
    · cases heq
      rw [hgenerated] at h
      dsimp only at h
      split at h
      · cases h
      · refine mem_setupConditional_of_mem (fun name' body' generated' hmem' hgenerated' htag => ?_)
          mem_replaceProfile h
        obtain rfl := profileTag_injective address htag
        cases hfunctional name body body' List.mem_cons_self (List.mem_cons_of_mem _ hmem')
        exact Except.ok.inj (hgenerated.symm.trans hgenerated')
    · split at h
      · exact ih hrest h hlater
      · dsimp only at h
        split at h
        · cases h
        · exact ih hrest h hlater

end Generated

/-- **All profiles that are assigned**: those that are assigned as they are, and those that are
generated, which are in the collection. -/
theorem adds_setupProfiles {env : PollerEnv} {host : PollerHost} {address : String}
    {profiles : Dict String ProfileBody} {documents documents' : List (String × ProfileBody)}
    {assigned : AssignedProfiles} {ir : InventoryRecord} (hir : host.inventory = some ir)
    (h : setupProfiles env host address profiles documents = (documents', .ok assigned)) :
    Adds Dict.empty assigned (fun t p => ∃ name body, profiles.get? name = some body ∧
        body.frequency = some t ∧
          (p = name ∧ PolledAsIs env ir (FieldMatches env host.target) name body ∨
            PolledUnderTag env ir address p name body)) ∧
      ∀ name body generated, name ∈ ir.profiles → profiles.get? name = some body →
        isConditional body = true → generateConditionalProfile env body address = .ok generated →
          (profileTag name address, generated) ∈ documents' := by
  unfold setupProfiles at h
  rw [hir] at h
  dsimp only at h
  split at h
  · cases h
  · next assigned₁ computed hassign =>
    obtain ⟨hadds, rfl⟩ := adds_assignProfiles hassign
    refine ⟨(hadds.trans (adds_setupConditional h)).congr fun t p => ?_, ?_⟩
    · constructor
      · rintro (⟨body, hbody, ht, hasks⟩ | ⟨name, body, hmem, ht, htag, hgenerated⟩)
        · exact ⟨p, body, hbody, ht, Or.inl ⟨rfl, hasks⟩⟩
        · obtain ⟨hname, hbody, hconditional⟩ := mem_conditionalOf.mp hmem
          exact ⟨name, body, hbody, ht, Or.inr ⟨htag, hname, hconditional, hgenerated⟩⟩
      · rintro ⟨name, body, hbody, ht, ⟨rfl, hasks⟩ | ⟨htag, hname, hconditional, hgenerated⟩⟩
        · exact Or.inl ⟨body, hbody, ht, hasks⟩
        · exact Or.inr ⟨name, body, mem_conditionalOf.mpr ⟨hname, hbody, hconditional⟩, ht, htag,
            hgenerated⟩
    · intro name body generated hname hbody hconditional hgenerated
      refine mem_setupConditional (fun name body body' hmem hmem' => ?_) h
        (mem_conditionalOf.mpr ⟨hname, hbody, hconditional⟩) hgenerated
      have hbody := (mem_conditionalOf.mp hmem).2.1
      rw [(mem_conditionalOf.mp hmem').2.1] at hbody
      exact (Option.some.inj hbody).symm

end Sc4snmp
