import Sc4snmp.Lib.Run
import Sc4snmp.Snmp.VarbindsResolver

/-!
# Refreshing the profiles of a worker

A worker builds its `ProfileCollection` once and calls `update` with every
configuration it reads from then on.  `update` writes the configuration down before it
processes it, and processing only ever adds to the processed profiles.  So a
configuration that could not be processed passes for processed when it comes again,
and a profile that is removed is still answered.

## Main definitions

* `AnswersAs`, `AnswersAsBuilt` — what can be told of a collection from outside.
* `Refines` — what a call of `update` owes.
* `Refreshable` — the configurations `update` takes over as it should.

## Main results

* `refines_iff` — one call.
* `refines_along_iff` — **along every sequence of calls, `update` refines a fresh build
  exactly when every configuration is refreshable**.
-/

namespace Sc4snmp

namespace ProfileCollection

/-! ### Answers -/

/-- Two collections answer alike. -/
structure AnswersAs (c c' : ProfileCollection) : Prop where
  profile : ∀ name, c.getProfile name = c'.getProfile name
  pollingInfo : ∀ names isWalk,
    c.getPollingInfoFromProfiles names isWalk = c'.getPollingInfoFromProfiles names isWalk

/-- What is polled follows from the profiles. -/
theorem answersAs_iff {c c' : ProfileCollection} :
    AnswersAs c c' ↔ ∀ name, c.getProfile name = c'.getProfile name := by
  refine ⟨AnswersAs.profile, fun h => ⟨h, fun names isWalk => ?_⟩⟩
  have hprofiles : c.getProfile = c'.getProfile := funext h
  unfold getPollingInfoFromProfiles
  rw [hprofiles]

theorem getProfile_congr {c c' : ProfileCollection} {name : String}
    (h : c.listOfProfiles.get? name = c'.listOfProfiles.get? name) :
    c.getProfile name = c'.getProfile name := by
  unfold getProfile
  rw [h]

theorem getProfile_of_notMem {c : ProfileCollection} {name : String}
    (h : c.listOfProfiles.get? name = none) : c.getProfile name = .nothing := by
  unfold getProfile
  rw [h]

/-- The collection answers as one built from the configuration. -/
def AnswersAsBuilt (c : ProfileCollection) (config : Dict String ProfileBody) : Prop :=
  ∃ fresh, build config = (fresh, .ok ()) ∧ AnswersAs c fresh

/-! ### Building -/

/-- Every profile of a configuration can be processed. -/
def AllProcessable (config : Dict String ProfileBody) : Prop :=
  ∀ name body, config.get? name = some body →
    ∃ varbinds, body.varBinds = some varbinds ∧ ∀ v ∈ varbinds, Varbind.Divisible v

theorem allProcessable_iff (config : Dict String ProfileBody) :
    AllProcessable config ↔ ∀ profile ∈ config.entries, Processable profile := by
  constructor
  · rintro h ⟨name, body⟩ hmem
    exact (Profile.process_returns_iff name body).mpr (h name body (Dict.mem_entries_iff.mp hmem))
  · intro h name body hget
    exact (Profile.process_returns_iff name body).mp
      (h (name, body) (Dict.mem_entries_iff.mpr hget))

/-- The processed profile of a name. -/
def processedProfile (config : Dict String ProfileBody) (name : String) : Option Profile :=
  (config.get? name).bind fun body => (Profile.new name body).process.toOption

/-- Processing a configuration that can be processed: its profiles are replaced, the
others stay. -/
theorem processProfiles_of_processable (c : ProfileCollection)
    (h : AllProcessable c.listOfProfilesRaw) :
    ∃ processed, c.processProfiles = ({ c with listOfProfiles := processed }, .ok ()) ∧
      ∀ name, processed.get? name = if name ∈ c.listOfProfilesRaw
        then processedProfile c.listOfProfilesRaw name else c.listOfProfiles.get? name := by
  obtain ⟨processed, hrun, hprofiles, hothers⟩ := processFrom_of_processable
    c.listOfProfilesRaw.nodupKeys ((allProcessable_iff _).mp h) c.listOfProfiles
  refine ⟨processed, ?_, ?_⟩
  · unfold processProfiles
    rw [hrun]
  · intro name
    split
    · next hmem =>
      obtain ⟨body, hbody⟩ := Dict.mem_keys_iff.mp hmem
      rw [hprofiles name body (Dict.mem_entries_iff.mpr hbody), processedProfile, hbody]
      rfl
    · next hmem => exact hothers name hmem

theorem processProfiles_raises (c : ProfileCollection) (h : ¬ AllProcessable c.listOfProfilesRaw) :
    ∃ processed err, c.processProfiles = ({ c with listOfProfiles := processed }, .error err) := by
  rw [allProcessable_iff] at h
  obtain ⟨processed, err, hrun⟩ := processFrom_raises h c.listOfProfiles
  refine ⟨processed, err, ?_⟩
  unfold processProfiles
  rw [hrun]

/-- A collection is built from the configurations that can be processed, and has their
profiles and no others. -/
theorem build_iff (config : Dict String ProfileBody) (fresh : ProfileCollection)
    (h : build config = (fresh, .ok ())) :
    AllProcessable config ∧ fresh.listOfProfilesRaw = config ∧
      ∀ name, fresh.listOfProfiles.get? name = processedProfile config name := by
  unfold build at h
  by_cases hall : AllProcessable config
  · obtain ⟨processed, hrun, hprofiles⟩ := processProfiles_of_processable
      ⟨config, Dict.empty⟩ hall
    cases h.symm.trans hrun
    refine ⟨hall, rfl, fun name => ?_⟩
    rw [hprofiles]
    split
    · rfl
    · next hmem =>
      have hnone : config.get? name = none := Dict.get?_eq_none_iff.mpr hmem
      rw [Dict.get?_empty, processedProfile, hnone]
      rfl
  · obtain ⟨processed, err, hrun⟩ := processProfiles_raises ⟨config, Dict.empty⟩ hall
    cases h.symm.trans hrun

theorem build_of_processable {config : Dict String ProfileBody} (h : AllProcessable config) :
    ∃ fresh, build config = (fresh, .ok ()) := by
  obtain ⟨processed, hrun, -⟩ := processProfiles_of_processable ⟨config, Dict.empty⟩ h
  exact ⟨_, hrun⟩

/-- The order of a configuration does not matter. -/
theorem answersAsBuilt_congr {c : ProfileCollection} {config config' : Dict String ProfileBody}
    (hsame : config.Same config') (h : AnswersAsBuilt c config) : AnswersAsBuilt c config' := by
  obtain ⟨fresh, hbuild, hanswers⟩ := h
  obtain ⟨hall, -, hprofiles⟩ := build_iff config fresh hbuild
  have hall' : AllProcessable config' :=
    fun name body hget => hall name body ((hsame name).trans hget)
  obtain ⟨fresh', hbuild'⟩ := build_of_processable hall'
  obtain ⟨-, -, hprofiles'⟩ := build_iff config' fresh' hbuild'
  refine ⟨fresh', hbuild', answersAs_iff.mpr fun name => ?_⟩
  rw [hanswers.profile]
  apply getProfile_congr
  rw [hprofiles, hprofiles', processedProfile, processedProfile, hsame name]

/-! ### One call -/

/-- What a call of `update` owes.  When it returns, the collection answers as a fresh one;
when it raises, the next call with the same configuration does not take it for the one
it has. -/
def Refines (c : ProfileCollection) (config : Dict String ProfileBody) : Prop :=
  match c.update config with
  | (c', .ok ()) => AnswersAsBuilt c' config
  | (c', .error _) => ¬ c'.listOfProfilesRaw.Same config

/-- The configuration is the one the collection has; or all of it can be processed, and the
collection answers no profile that it has not. -/
def Refreshable (c : ProfileCollection) (config : Dict String ProfileBody) : Prop :=
  c.listOfProfilesRaw.Same config ∨
    AllProcessable config ∧ ∀ name ∉ config, c.getProfile name = .nothing

/-- One call: it refines a fresh build exactly when the configuration is refreshable. -/
theorem refines_iff {c : ProfileCollection} (h : AnswersAsBuilt c c.listOfProfilesRaw)
    (config : Dict String ProfileBody) : Refines c config ↔ Refreshable c config := by
  unfold Refines update
  by_cases hsame : c.listOfProfilesRaw.Same config
  · rw [if_pos hsame]
    exact iff_of_true (answersAsBuilt_congr hsame h) (Or.inl hsame)
  rw [if_neg hsame, Refreshable, or_iff_right hsame]
  by_cases hall : AllProcessable config
  · obtain ⟨processed, hrun, hprofiles⟩ := processProfiles_of_processable
      { c with listOfProfilesRaw := config } hall
    obtain ⟨fresh, hbuild⟩ := build_of_processable hall
    obtain ⟨-, -, hfresh⟩ := build_iff config fresh hbuild
    rw [hrun, and_iff_right hall]
    have hbuilt : ∀ c', AnswersAsBuilt c' config ↔
        ∀ name, c'.getProfile name = fresh.getProfile name := by
      intro c'
      rw [← answersAs_iff]
      constructor
      · rintro ⟨fresh', hbuild', hanswers⟩
        cases hbuild.symm.trans hbuild'
        exact hanswers
      · exact fun hanswers => ⟨fresh, hbuild, hanswers⟩
    simp only [hbuilt]
    refine forall_congr' ?_
    intro name
    by_cases hmem : name ∈ config
    · -- a profile of the configuration is processed anew
      refine iff_of_true (getProfile_congr ?_) fun hnot => absurd hmem hnot
      rw [hprofiles, hfresh, if_pos hmem]
    · have hnone : fresh.getProfile name = .nothing := by
        apply getProfile_of_notMem
        rw [hfresh, processedProfile, Dict.get?_eq_none_iff.mpr hmem]
        rfl
      have hstale : getProfile ⟨config, processed⟩ name = c.getProfile name :=
        getProfile_congr ((hprofiles name).trans (if_neg hmem))
      rw [hnone, hstale]
      exact ⟨fun heq _ => heq, fun heq => heq hmem⟩
  · obtain ⟨processed, err, hrun⟩ := processProfiles_raises
      { c with listOfProfilesRaw := config } hall
    rw [hrun]
    exact iff_of_false (fun hnot => hnot Dict.Same.rfl) fun hand => hall hand.1

/-- A call that refines a fresh build leaves a collection that answers as one. -/
theorem answersAsBuilt_update {c : ProfileCollection} (h : AnswersAsBuilt c c.listOfProfilesRaw)
    {config : Dict String ProfileBody} (hrefines : Refines c config) :
    AnswersAsBuilt (c.update config).1 (c.update config).1.listOfProfilesRaw := by
  unfold Refines update at *
  by_cases hsame : c.listOfProfilesRaw.Same config
  · rw [if_pos hsame]
    exact h
  rw [if_neg hsame] at hrefines ⊢
  by_cases hall : AllProcessable config
  · obtain ⟨processed, hrun, -⟩ := processProfiles_of_processable
      { c with listOfProfilesRaw := config } hall
    rw [hrun] at hrefines ⊢
    exact hrefines
  · obtain ⟨processed, err, hrun⟩ := processProfiles_raises
      { c with listOfProfilesRaw := config } hall
    rw [hrun] at hrefines
    exact absurd Dict.Same.rfl hrefines

/-! ### Every sequence of calls -/

/-- The collection after one call, whether it returns or raises. -/
def refresh (c : ProfileCollection) (config : Dict String ProfileBody) : ProfileCollection :=
  (c.update config).1

/-- **Along every sequence of calls `update` refines a fresh build exactly when every
configuration is refreshable.** -/
theorem refines_along_iff (config : Dict String ProfileBody) (c : ProfileCollection)
    (h : build config = (c, .ok ())) (configs : List (Dict String ProfileBody)) :
    Run.Along refresh Refines c configs ↔ Run.Along refresh Refreshable c configs := by
  have hraw := (build_iff config c h).2.1
  exact Run.along_iff (I := fun c => AnswersAsBuilt c c.listOfProfilesRaw)
    (fun _ config hc => refines_iff hc config) (fun _ _ hc => answersAsBuilt_update hc)
    ⟨c, by rw [hraw]; exact h, answersAs_iff.mpr fun _ => rfl⟩ configs

/-! ### A profile that is removed -/

/-- A configuration with one profile. -/
def routerConfig : Dict String ProfileBody :=
  Dict.ofList [("router", { frequency := some 60, varBinds := some [[.str "IF-MIB"]] })]

/-- A worker that begins with no profiles, and reads the configuration and then none again. -/
theorem refines_along_iff_router :
    Run.Along refresh Refines ⟨Dict.empty, Dict.empty⟩ [routerConfig, Dict.empty] ↔
      Run.Along refresh Refreshable ⟨Dict.empty, Dict.empty⟩ [routerConfig, Dict.empty] :=
  refines_along_iff Dict.empty ⟨Dict.empty, Dict.empty⟩ rfl [routerConfig, Dict.empty]

/-- The profile is still answered. -/
theorem refines_along_fails :
    ¬ ∀ (config : Dict String ProfileBody) (c : ProfileCollection),
      build config = (c, .ok ()) → ∀ configs : List (Dict String ProfileBody),
        Run.Along refresh Refines c configs := by
  intro hclaim
  obtain ⟨-, hremoved, -⟩ := hclaim Dict.empty ⟨Dict.empty, Dict.empty⟩ rfl
    [routerConfig, Dict.empty]
  obtain ⟨fresh, hbuild, hanswers⟩ := hremoved
  obtain rfl : ⟨Dict.empty, Dict.empty⟩ = fresh := congrArg Prod.fst hbuild
  exact absurd (hanswers.profile "router") (by decide)

end ProfileCollection

end Sc4snmp
