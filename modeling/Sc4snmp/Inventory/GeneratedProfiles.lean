import Sc4snmp.Inventory.SetupPoller
import Sc4snmp.Lib.Run

/-!
# Generated profiles

The profiles collection has two writers: a load replaces it by the configuration, and
the setup of a host adds the profiles it generates from conditional ones and schedules
polls with their tags.  A setup leaves every tag that is polled with in the
collection.  A load drops all of them, whether the conditional profiles are still
configured or not, until the next walk of each host.

## Main definitions

* `ProfilesEvent`, `ProfilesState.step` — loads and setups.
* `TagsPresent` — no poll refers to a vanished generated profile.
* `KeepsTags` — a load whose configuration has the tags itself.

## Main results

* `tagsPresent_setupPoller` — a setup keeps the tags present.
* `tagsPresent_along_iff` — **along every run the tags stay present exactly when every load
  keeps them**.
-/

namespace Sc4snmp

/-- The profiles collection, the configuration it was last replaced by, and the schedules. -/
structure ProfilesState where
  documents : List (String × ProfileBody)
  config : Dict String ProfileBody
  schedules : ScheduleStore

/-- What writes to the profiles collection. -/
inductive ProfilesEvent
  | load (elements : Dict String RawProfile)
  | setupPoller (env : PollerEnv) (host : PollerHost) (work : PollWork)

namespace ProfilesState

/-- Nothing configured. -/
def initial : ProfilesState := ⟨[], Dict.empty, ScheduleStore.empty⟩

/-- One step. -/
def step (st : ProfilesState) : ProfilesEvent → ProfilesState
  | .load elements =>
    { st with
      documents := ProfilesManager.updateAll elements st.documents
      config := validateProfiles elements }
  | .setupPoller env host work =>
    let profiles := returnCollection [st.documents, st.documents, st.documents]
    match inventorySetupPoller env host work profiles st.documents st.schedules with
    | (documents, .ok schedules) => { st with documents, schedules }
    | (documents, .error _) => { st with documents }

end ProfilesState

/-! ### Tags -/

/-- Some poll is scheduled with the profile. -/
def PolledWith (s : ScheduleStore) (p : String) : Prop :=
  ∃ k e ps, s.lookup? k = some e ∧ e.task = pollTask ∧
    e.kwargs.get? "profiles" = some (.list ps) ∧ p ∈ ps

/-- The name is a tag of a conditional profile of the configuration. -/
def GeneratedTag (config : Dict String ProfileBody) (tag : String) : Prop :=
  ∃ name body address, config.get? name = some body ∧ isConditional body = true ∧
    tag = profileTag name address

/-- Every tag of a configured conditional profile that some poll is scheduled with is in the
profiles collection. -/
def TagsPresent (st : ProfilesState) : Prop :=
  ∀ tag, PolledWith st.schedules tag → GeneratedTag st.config tag →
    tag ∈ st.documents.map Prod.fst

/-- A load that drops no such tag: the configuration has a profile of that name itself. -/
def KeepsTags (st : ProfilesState) : ProfilesEvent → Prop
  | .load elements =>
    ∀ tag, PolledWith st.schedules tag → GeneratedTag (validateProfiles elements) tag →
      tag ∈ (validateProfiles elements).keys
  | .setupPoller .. => True

/-! ### One step -/

/-- A collection nobody writes to is read as it is. -/
theorem returnCollection_unchanged {ν : Type} (documents : List (String × ν)) :
    returnCollection [documents, documents, documents] = returnCollectionOnce documents := by
  rcases returnCollection_cases [documents, documents, documents] with
    ⟨hempty, hread⟩ | ⟨found, hmem, -, hread⟩
  · rw [hread, hempty documents List.mem_cons_self]
    rfl
  · obtain rfl : found = documents := by simpa using hmem
    exact hread

/-- Polls are scheduled with assigned profiles, and with what they were before. -/
theorem polledWith_reconcilePolls {work : PollWork} {assigned : AssignedProfiles}
    {s s' : ScheduleStore} {names : List String} (hs : s.Readable)
    (hassigned : AssignsAmong names assigned) (hrun : reconcilePolls work assigned s = .ok s')
    {p : String} (h : PolledWith s' p) : PolledWith s p ∨ p ∈ names := by
  obtain ⟨s₁, hrun', hafter⟩ := reconcilePolls_spec work assigned hs
  cases hrun.symm.trans hrun'
  obtain ⟨k, e, ps, hlookup, htask, hkwargs, hp⟩ := h
  by_cases hkey : ∃ period ∈ assigned.keys, k = pollKey work.address period
  · -- scheduled by this task
    obtain ⟨period, hperiod, rfl⟩ := hkey
    obtain ⟨profiles, hprofiles⟩ := Dict.mem_keys_iff.mp hperiod
    rw [hafter.scheduled period profiles hprofiles, Option.some.injEq] at hlookup
    subst hlookup
    have hcarries : Carries (scheduledPoll work period profiles
        (s.lookup? (pollKey work.address period))) period profiles := scheduledPoll_carries
    obtain ⟨-, -, ps', hps', hmem⟩ := hcarries
    rw [hps'] at hkwargs
    cases hkwargs
    exact Or.inr (hassigned period profiles hprofiles p ((hmem p).mp hp))
  · have hother : ∀ period ∈ assigned.keys, k ≠ pollKey work.address period :=
      fun period hperiod heq => hkey ⟨period, hperiod, heq⟩
    rw [hafter.other k hother, Option.filter_eq_some_iff] at hlookup
    exact Or.inl ⟨k, e, ps, hlookup.1, htask, hkwargs, hp⟩

/-- The invariant of the run. -/
structure ProfilesState.Sound (st : ProfilesState) : Prop where
  readable : st.schedules.Readable
  tags : TagsPresent st

/-- A setup keeps the tags present, those it adds included. -/
theorem sound_setupPoller {st : ProfilesState} (h : st.Sound) (env : PollerEnv) (host : PollerHost)
    (work : PollWork) : (st.step (.setupPoller env host work)).Sound := by
  unfold ProfilesState.step
  simp only [returnCollection_unchanged, inventorySetupPoller]
  cases hsetup : setupProfiles env host work.address (returnCollectionOnce st.documents)
    st.documents with
  | mk documents result =>
    obtain ⟨hgrow, hresult⟩ := setupProfiles_spec hsetup
    cases result with
    | error err => exact ⟨h.readable, fun tag hpolled htag => hgrow tag (h.tags tag hpolled htag)⟩
    | ok assigned =>
      obtain ⟨s', hrun, -⟩ := reconcilePolls_spec work assigned h.readable
      simp only [hrun]
      refine ⟨reconcilePolls_readable h.readable hrun, fun tag hpolled htag => ?_⟩
      rcases polledWith_reconcilePolls h.readable
        (hresult assigned rfl) hrun hpolled with hold | hnew
      · exact hgrow tag (h.tags tag hold htag)
      · exact hnew

/-- After a load the collection is the configuration. -/
theorem documents_load (st : ProfilesState) (elements : Dict String RawProfile) :
    (st.step (.load elements)).documents = (validateProfiles elements).entries :=
  documents_updateCollection _ _

theorem tagsPresent_step_iff {st : ProfilesState} (h : st.Sound) (event : ProfilesEvent) :
    TagsPresent (st.step event) ↔ KeepsTags st event := by
  cases event with
  | load elements =>
    unfold TagsPresent KeepsTags
    rw [documents_load]
    exact Iff.rfl
  | setupPoller env host work => exact iff_of_true (sound_setupPoller h env host work).tags trivial

/-! ### Every run -/

/-- **Along every run the tags stay present exactly when every load keeps them.** -/
theorem tagsPresent_along_iff (st : ProfilesState) (hs : st.schedules.Readable)
    (h : TagsPresent st) (events : List ProfilesEvent) :
    Run.Along ProfilesState.step (fun st event => TagsPresent (st.step event)) st events ↔
      Run.Along ProfilesState.step KeepsTags st events := by
  refine Run.along_iff (I := ProfilesState.Sound)
    (fun _ event hst => tagsPresent_step_iff hst event)
    ?_ ⟨hs, h⟩ events
  intro st event hst htags
  cases event with
  | load elements => exact ⟨hst.readable, htags⟩
  | setupPoller env host work => exact sound_setupPoller hst env host work

/-! ### A load with an unchanged configuration -/

/-- A profile of the interfaces that are up. -/
def interfaceProfile : ProfileBody :=
  { frequency := some 30
    varBinds := some [[.str "IF-MIB", .str "ifDescr"]]
    conditions := some [{ field := "IF-MIB.ifAdminStatus", operation := "equals",
                          value := .scalar (.str "up") }] }

/-- The configuration with that profile. -/
def interfaceConfig : Dict String RawProfile := Dict.ofList [("interfaces", some interfaceProfile)]

/-- The setup of a host with that profile whose first interface is up. -/
def interfaceSetup : ProfilesEvent :=
  .setupPoller
    { pollBaseProfiles := true
      search := fun _ _ => .ok false
      query := fun _ _ => .ok [[.int 1]] }
    { inventory := some { port := 161, address := some "10.0.0.1", version := some "2c",
                          community := some "public", secret := none, securityEngine := none,
                          walkInterval := 42000, maxOidToProcess := none,
                          profiles := ["interfaces"], smartProfiles := some false,
                          delete := some false, group := none }
      target := some none }
    { address := "10.0.0.1:161", group := .none, chainOfTasksExpiryTime := some 60 }

/-- The tag of that host. -/
def interfaceTag : String := "interfaces__10|0|0|1:161"

theorem tagsPresent_along_iff_initial :
    Run.Along ProfilesState.step (fun st event => TagsPresent (st.step event))
        ProfilesState.initial [.load interfaceConfig, interfaceSetup, .load interfaceConfig] ↔
      Run.Along ProfilesState.step KeepsTags ProfilesState.initial
        [.load interfaceConfig, interfaceSetup, .load interfaceConfig] :=
  tagsPresent_along_iff ProfilesState.initial ScheduleStore.readable_empty
    (fun _ ⟨_, _, _, hlookup, _⟩ => (nomatch hlookup)) _

/-- The second load drops the tag the host is polled with. -/
theorem tagsPresent_along_fails :
    ¬ ∀ events : List ProfilesEvent,
      Run.Along ProfilesState.step (fun st event => TagsPresent (st.step event))
        ProfilesState.initial events := by
  intro hclaim
  obtain ⟨-, -, hload, -⟩ := hclaim [.load interfaceConfig, interfaceSetup, .load interfaceConfig]
  have hpresent := hload interfaceTag
    ⟨pollKey "10.0.0.1:161" 30, _, [interfaceTag], rfl, rfl, rfl, List.mem_singleton_self _⟩
    ⟨"interfaces", interfaceProfile, "10.0.0.1:161", by decide, rfl, by decide⟩
  exact absurd hpresent (by decide)

end Sc4snmp
