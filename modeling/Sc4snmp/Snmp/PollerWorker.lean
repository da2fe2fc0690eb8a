import Sc4snmp.Snmp.MibLoads
import Sc4snmp.Snmp.Poll
import Sc4snmp.Snmp.ProfileRefresh

/-!
# A poller between its tasks

A worker keeps one `Poller` for all the polls it runs, and one for all the walks.  What is kept
from task to task are the processed profiles, the time they were last read, and the MIB data.
`do_work` reads the profiles again when they are older than `PROFILES_RELOAD_DELAY`, and in front
of every walk.  `get_varbinds` loads the MIB families of what is polled, those that are not loaded.

Times are whole numbers.  The time of a task is taken when it begins, and another one when it has
read the profiles.  The authentication and the transport are left out but for whether they raise,
and the agent is what it answers.

## Main definitions

* `PollerWorker`, `PollerWorker.doWork` — what is kept, and `do_work`.
* `WorkerRun` — a worker, and the profiles that others store.
* `TakenFrom` — the worker answers as a configuration, as it was read at a time.
* `ReadIn` — some task of a run read it at that time.

## Main results

* `doWork_poll` — what a task returns is what a poll with the MIB data of the worker does.
* `doWork_taken` — the profiles after one task.
* `tasks_fresh` — **no task uses profiles that were read more than `PROFILES_RELOAD_DELAY` before,
  and a walk uses the present ones**, if each configuration that is read is refreshable.
-/

namespace Sc4snmp

variable {B : Type}

/-! ### What is requested -/

/-- `get_mib_families` of a container. -/
def VarBindContainer.getMibFamilies (c : VarBindContainer) : List VarbindItem :=
  c.map.values.filterMap List.head?

/-- `get_mib_families`: the source makes a set of these. -/
def Profile.getMibFamilies (p : Profile) : List VarbindItem :=
  p.varbindsBulk.getMibFamilies ++ p.varbindsGet.getMibFamilies

/-- The names among the families; a number is the name of no module. -/
def familyNames (families : List VarbindItem) : List String :=
  families.filterMap fun
    | .str name => some name
    | .int _ => none

/-- What `get_varbinds` returns. -/
structure RequestedVarbinds where
  varbindsGet : List Varbind
  getMapping : Dict VarbindItem String
  varbindsBulk : List Varbind
  bulkMapping : Dict VarbindItem String

namespace RequestedVarbinds

def nothing : RequestedVarbinds := ⟨[], Dict.empty, [], Dict.empty⟩

/-- The walk of a device without a profile. -/
def wholeTree : RequestedVarbinds := ⟨[], Dict.empty, [[.str "1.3.6"]], Dict.empty⟩

/-- `return_mapping_and_varbinds`. -/
def ofProfile (p : Profile) : RequestedVarbinds where
  varbindsGet := p.varbindsGet.map.values
  getMapping := p.varbindsGetMapping
  varbindsBulk := p.varbindsBulk.map.values
  bulkMapping := p.varbindsBulkMapping

end RequestedVarbinds

/-! ### The source -/

/-- The settings of a worker. -/
structure WorkerSetting where
  config : PollerConfig
  /-- `PROFILES_RELOAD_DELAY`. -/
  profilesReloadDelay : ℤ
  /-- The order of a set of names. -/
  setOrder : List String → List String
  setOrder_perm : ∀ names, (setOrder names).Perm names

/-- The attributes of a `Poller` that its tasks change. -/
structure PollerWorker (B : Type) where
  profilesCollection : ProfileCollection
  lastModified : ℤ
  mibs : MibState B

/-- A task: its arguments, and what it meets. -/
structure WorkerTask where
  now : ℤ
  /-- The time when the profiles have been read. -/
  updated : ℤ
  now_le_updated : now ≤ updated
  isWalk : Bool
  profiles : List String
  /-- `get_auth` and `setup_transport_target`. -/
  authenticate : Except PyError Unit
  bulkAnswers : List CommandAnswer
  getAnswers : List (Option CommandAnswer)

/-- The MIB data after `run_bulk_request`, which may have raised. -/
def bulkMibs (config : PollerConfig) (py : PySnmp B) (mapping : Dict String String) :
    List CommandAnswer → MibState B → Metrics → MibState B
  | [], st, _ => st
  | answer :: answers, st, metrics =>
    match bulkAnswer config py mapping (st, metrics) answer with
    | .error _ => st
    | .ok (st, metrics) => bulkMibs config py mapping answers st metrics

namespace PollerWorker

/-- The profiles are read again. -/
def reloads (setting : WorkerSetting) (w : PollerWorker B) (t : WorkerTask) : Prop :=
  t.now - w.lastModified > setting.profilesReloadDelay ∨ t.isWalk = true

instance (setting : WorkerSetting) (w : PollerWorker B) (t : WorkerTask) :
    Decidable (w.reloads setting t) := inferInstanceAs (Decidable (_ ∨ _))

/-- The beginning of `do_work`, with the profiles that are stored. -/
def reloadProfiles (setting : WorkerSetting) (w : PollerWorker B)
    (stored : Dict String ProfileBody) (t : WorkerTask) : PollerWorker B × Except PyError Unit :=
  if w.reloads setting t then
    match w.profilesCollection.update stored with
    | (profilesCollection, .ok ()) =>
      ({ w with profilesCollection, lastModified := t.updated }, .ok ())
    | (profilesCollection, .error err) => ({ w with profilesCollection }, .error err)
  else (w, .ok ())

/-- The MIB families of a profile that are not loaded. -/
def missingFamilies (setting : WorkerSetting) (w : PollerWorker B) (p : Profile) : List String :=
  setting.setOrder ((familyNames p.getMibFamilies).eraseDups.filter
    (· ∉ w.mibs.alreadyLoadedMibs))

/-- `get_varbinds`. -/
def getVarbinds (setting : WorkerSetting) (py : PySnmp B) (w : PollerWorker B) (t : WorkerTask) :
    PollerWorker B × Except PyError RequestedVarbinds :=
  if t.isWalk = true ∧ t.profiles = [] then (w, .ok .wholeTree)
  else match w.profilesCollection.getPollingInfoFromProfiles t.profiles t.isWalk with
    | .error err => (w, .error err)
    | .ok (.profile p) =>
      ({ w with mibs := w.mibs.load py (w.missingFamilies setting p) }, .ok (.ofProfile p))
    | .ok _ => (w, .ok .nothing)

/-- The bulk walks of a task. -/
def requestBulk (setting : WorkerSetting) (py : PySnmp B) (w : PollerWorker B)
    (varbinds : RequestedVarbinds) (t : WorkerTask) : PollerWorker B × Except PyError Metrics :=
  if varbinds.varbindsBulk = [] then (w, .ok Dict.empty)
  else
    let mapping := textKeyed varbinds.bulkMapping
    ({ w with mibs := bulkMibs setting.config py mapping t.bulkAnswers w.mibs Dict.empty },
      (runBulkRequest setting.config py mapping t.bulkAnswers w.mibs Dict.empty).map Prod.snd)

/-- The requests of a task. -/
def request (setting : WorkerSetting) (py : PySnmp B) (w : PollerWorker B)
    (varbinds : RequestedVarbinds) (t : WorkerTask) : PollerWorker B × Except PyError Metrics :=
  let (w, result) := w.requestBulk setting py varbinds t
  (w, result >>= fun metrics =>
    if varbinds.varbindsGet = [] then .ok metrics
    else runGetRequest setting.config (textKeyed varbinds.getMapping) t.getAnswers metrics)

/-- `do_work`, as the metrics before their profiles are joined. -/
def doWork (setting : WorkerSetting) (py : PySnmp B) (w : PollerWorker B)
    (stored : Dict String ProfileBody) (t : WorkerTask) :
    PollerWorker B × Except PyError Metrics :=
  match w.reloadProfiles setting stored t with
  | (w, .error err) => (w, .error err)
  | (w, .ok ()) =>
    match w.getVarbinds setting py t with
    | (w, .error err) => (w, .error err)
    | (w, .ok varbinds) =>
      if varbinds.varbindsGet = [] ∧ varbinds.varbindsBulk = [] then (w, .ok Dict.empty)
      else match t.authenticate with
        | .error err => (w, .error err)
        | .ok () => w.request setting py varbinds t

end PollerWorker

open PollerWorker ProfileCollection

variable {setting : WorkerSetting} {py : PySnmp B}

/-! ### What a task returns -/

theorem values_eq_nil_iff {d : Dict VarbindItem Varbind} :
    d.values = [] ↔ d.entries.isEmpty = true := by
  rw [Dict.values, List.map_eq_nil_iff, List.isEmpty_iff]

/-- The requests of a profile are the ones of a poll. -/
theorem request_ofProfile (w : PollerWorker B) (p : Profile) (t : WorkerTask) :
    (w.request setting py (.ofProfile p) t).2 =
      Poll.request ⟨setting.config, py, w.profilesCollection, t.profiles, w.mibs, t.bulkAnswers,
        t.getAnswers⟩ p := by
  unfold PollerWorker.request PollerWorker.requestBulk Poll.request Poll.requestBulk
  simp only [RequestedVarbinds.ofProfile, values_eq_nil_iff]
  split <;> rfl

/-- **What a task returns is what a poll with the MIB data of the worker does**, once its profiles
are read and it is authenticated. -/
theorem doWork_poll {w w' w'' : PollerWorker B} {stored : Dict String ProfileBody} {t : WorkerTask}
    {varbinds : RequestedVarbinds} (hpoll : t.isWalk = false)
    (hreload : w.reloadProfiles setting stored t = (w', .ok ()))
    (hvarbinds : w'.getVarbinds setting py t = (w'', .ok varbinds))
    (hauthenticated : t.authenticate = .ok ()) :
    (w.doWork setting py stored t).2 =
      Poll.doWork ⟨setting.config, py, w'.profilesCollection, t.profiles, w''.mibs,
        t.bulkAnswers, t.getAnswers⟩ := by
  unfold doWork Poll.doWork
  rw [hreload]
  dsimp only
  rw [hvarbinds, hauthenticated]
  unfold getVarbinds at hvarbinds
  rw [if_neg (by simp [hpoll]), hpoll] at hvarbinds
  cases hinfo : w'.profilesCollection.getPollingInfoFromProfiles t.profiles false with
  | error err =>
    rw [hinfo] at hvarbinds
    cases hvarbinds
  | ok info =>
    rw [hinfo] at hvarbinds
    cases info with
    | profile p =>
      cases hvarbinds
      show _ = Poll.request _ p
      rw [← request_ofProfile { w' with mibs := w'.mibs.load py (w'.missingFamilies setting p) }]
      dsimp only
      split
      · next hempty =>
        unfold PollerWorker.request PollerWorker.requestBulk
        rw [if_pos hempty.2]
        show _ = Except.ok _ >>= _
        simp [hempty.1, bind, Except.bind]
      · rfl
    | nothing =>
      cases hvarbinds
      rfl
    | none =>
      cases hvarbinds
      rfl

/-! ### One task -/

/-- The worker answers as the configuration, as it was read at the time. -/
structure TakenFrom (w : PollerWorker B) (config : Dict String ProfileBody) (time : ℤ) : Prop where
  built : AnswersAsBuilt w.profilesCollection w.profilesCollection.listOfProfilesRaw
  same : w.profilesCollection.listOfProfilesRaw.Same config
  lastModified : w.lastModified = time

theorem TakenFrom.answersAsBuilt {w : PollerWorker B} {config : Dict String ProfileBody} {time : ℤ}
    (h : TakenFrom w config time) : AnswersAsBuilt w.profilesCollection config :=
  answersAsBuilt_congr h.same h.built

theorem takenFrom_congr {w w' : PollerWorker B} (config : Dict String ProfileBody) (time : ℤ)
    (hprofiles : w'.profilesCollection = w.profilesCollection)
    (hmodified : w'.lastModified = w.lastModified) :
    TakenFrom w' config time ↔ TakenFrom w config time := by
  constructor
  · rintro ⟨hbuilt, hsame, htime⟩
    exact ⟨hprofiles ▸ hbuilt, hprofiles ▸ hsame, hmodified ▸ htime⟩
  · rintro ⟨hbuilt, hsame, htime⟩
    exact ⟨hprofiles ▸ hbuilt, hprofiles ▸ hsame, hmodified ▸ htime⟩

/-- `update` takes a refreshable configuration over. -/
theorem update_same {c : ProfileCollection} {config : Dict String ProfileBody}
    (h : AnswersAsBuilt c c.listOfProfilesRaw) (hrefreshable : Refreshable c config) :
    ∃ c', c.update config = (c', .ok ()) ∧ AnswersAsBuilt c' c'.listOfProfilesRaw ∧
      c'.listOfProfilesRaw.Same config := by
  have hrefines := (refines_iff h config).mpr hrefreshable
  have hbuilt := answersAsBuilt_update h hrefines
  have hraw : (c.update config).1.listOfProfilesRaw.Same config := by
    unfold update
    split
    · next hsame => exact hsame
    · exact Dict.Same.rfl
  unfold Refines at hrefines
  cases hupdate : c.update config with
  | mk c' result =>
    rw [hupdate] at hbuilt hraw hrefines
    cases result with
    | ok => exact ⟨c', rfl, hbuilt, hraw⟩
    | error err => exact absurd hraw hrefines

/-- The profiles are changed where they are read again, and nowhere else. -/
theorem doWork_profiles (setting : WorkerSetting) (py : PySnmp B) (w : PollerWorker B)
    (stored : Dict String ProfileBody) (t : WorkerTask) :
    (w.doWork setting py stored t).1.profilesCollection =
        (w.reloadProfiles setting stored t).1.profilesCollection ∧
      (w.doWork setting py stored t).1.lastModified =
        (w.reloadProfiles setting stored t).1.lastModified := by
  have hvarbinds : ∀ w' : PollerWorker B,
      (w'.getVarbinds setting py t).1.profilesCollection = w'.profilesCollection ∧
        (w'.getVarbinds setting py t).1.lastModified = w'.lastModified := by
    intro w'
    unfold getVarbinds
    split
    · exact ⟨rfl, rfl⟩
    · split <;> exact ⟨rfl, rfl⟩
  have hrequest : ∀ (w' : PollerWorker B) varbinds,
      (w'.request setting py varbinds t).1.profilesCollection = w'.profilesCollection ∧
        (w'.request setting py varbinds t).1.lastModified = w'.lastModified := by
    intro w' varbinds
    show (w'.requestBulk setting py varbinds t).1.profilesCollection = _ ∧
      (w'.requestBulk setting py varbinds t).1.lastModified = _
    unfold PollerWorker.requestBulk
    split <;> exact ⟨rfl, rfl⟩
  unfold doWork
  cases w.reloadProfiles setting stored t with
  | mk w' result =>
    cases result with
    | error err => exact ⟨rfl, rfl⟩
    | ok =>
      have h := hvarbinds w'
      dsimp only
      cases hget : w'.getVarbinds setting py t with
      | mk w'' result =>
        rw [hget] at h
        cases result with
        | error err => exact h
        | ok varbinds =>
          dsimp only
          split
          · exact h
          · split
            · exact h
            · exact ⟨(hrequest w'' varbinds).1.trans h.1, (hrequest w'' varbinds).2.trans h.2⟩

/-- The profiles after a task: the ones before, or the ones that are stored. -/
theorem doWork_taken (py : PySnmp B) {w : PollerWorker B} {stored config : Dict String ProfileBody}
    {time : ℤ} {t : WorkerTask} (h : TakenFrom w config time)
    (hrefreshable : w.reloads setting t → Refreshable w.profilesCollection stored) :
    if w.reloads setting t then TakenFrom (w.doWork setting py stored t).1 stored t.updated
      else TakenFrom (w.doWork setting py stored t).1 config time := by
  obtain ⟨hprofiles, hmodified⟩ := doWork_profiles setting py w stored t
  rw [takenFrom_congr _ _ hprofiles hmodified, takenFrom_congr _ _ hprofiles hmodified]
  unfold reloadProfiles
  split
  · next hreloads =>
    obtain ⟨c', hupdate, hbuilt, hsame⟩ := update_same h.built (hrefreshable hreloads)
    rw [hupdate]
    exact ⟨hbuilt, hsame, rfl⟩
  · exact h

/-! ### Every run -/

/-- A worker, and the profiles that are stored. -/
structure WorkerRun (B : Type) where
  worker : PollerWorker B
  stored : Dict String ProfileBody

/-- What happens: the stored profiles are changed, or the worker has a task. -/
inductive WorkerEvent where
  | store (config : Dict String ProfileBody)
  | task (t : WorkerTask)

namespace WorkerRun

def step (setting : WorkerSetting) (py : PySnmp B) (r : WorkerRun B) : WorkerEvent → WorkerRun B
  | .store config => { r with stored := config }
  | .task t => { r with worker := (r.worker.doWork setting py r.stored t).1 }

/-- What is read again is refreshable. -/
def ReadsRefreshable (setting : WorkerSetting) (r : WorkerRun B) : WorkerEvent → Prop
  | .store _ => True
  | .task t => r.worker.reloads setting t → Refreshable r.worker.profilesCollection r.stored

/-- A task of the run read the profiles, and had read them at the time. -/
def ReadIn (setting : WorkerSetting) (py : PySnmp B) (r : WorkerRun B) (events : List WorkerEvent)
    (config : Dict String ProfileBody) (time : ℤ) : Prop :=
  ∃ before u others, events = before ++ .task u :: others ∧
    (Run.final (step setting py) r before).worker.reloads setting u ∧
    (Run.final (step setting py) r before).stored = config ∧ u.updated = time

variable {r : WorkerRun B} {config : Dict String ProfileBody} {time : ℤ}

theorem ReadIn.append {events : List WorkerEvent} (h : ReadIn setting py r events config time)
    (others : List WorkerEvent) : ReadIn setting py r (events ++ others) config time := by
  obtain ⟨before, u, rest, rfl, hreloads, hstored, htime⟩ := h
  exact ⟨before, u, rest ++ others, by simp, hreloads, hstored, htime⟩

/-- The profiles of the worker are its first ones, or ones a task read. -/
theorem taken_final {config₀ : Dict String ProfileBody} {time₀ : ℤ}
    (h : TakenFrom r.worker config₀ time₀) (events : List WorkerEvent)
    (hrefreshable : Run.Along (step setting py) (ReadsRefreshable setting) r events) :
    ∃ config time, TakenFrom (Run.final (step setting py) r events).worker config time ∧
      (config = config₀ ∧ time = time₀ ∨ ReadIn setting py r events config time) := by
  induction events using List.reverseRecOn with
  | nil => exact ⟨config₀, time₀, h, Or.inl ⟨rfl, rfl⟩⟩
  | append_singleton events event ih =>
    rw [Run.along_append] at hrefreshable
    obtain ⟨hbefore, hevent, -⟩ := hrefreshable
    obtain ⟨config, time, htaken, hfrom⟩ := ih hbefore
    have hfrom' : config = config₀ ∧ time = time₀ ∨
        ReadIn setting py r (events ++ [event]) config time :=
      hfrom.imp_right fun hread => hread.append [event]
    rw [Run.final_append]
    cases event with
    | store stored => exact ⟨config, time, htaken, hfrom'⟩
    | task t =>
      have hstep := doWork_taken py htaken hevent
      split at hstep
      · next hreloads =>
        exact ⟨_, _, hstep, Or.inr ⟨events, t, [], rfl, hreloads, rfl, rfl⟩⟩
      · exact ⟨config, time, hstep, hfrom'⟩

/-- **No task uses profiles that were read more than `PROFILES_RELOAD_DELAY` before, and a walk
uses the ones that are stored**, in every run where what is read is refreshable. -/
theorem tasks_fresh (setting : WorkerSetting) (py : PySnmp B) (r : WorkerRun B)
    (config₀ : Dict String ProfileBody)
    (hinit : build config₀ = (r.worker.profilesCollection, .ok ()))
    (events : List WorkerEvent) (t : WorkerTask)
    (hrefreshable :
      Run.Along (step setting py) (ReadsRefreshable setting) r (events ++ [.task t])) :
    ∃ config time,
      AnswersAsBuilt
        (Run.final (step setting py) r (events ++ [.task t])).worker.profilesCollection config ∧
      (config = config₀ ∧ time = r.worker.lastModified ∨
        ReadIn setting py r (events ++ [.task t]) config time) ∧
      t.now ≤ time + max setting.profilesReloadDelay 0 ∧
      (t.isWalk = true → config = (Run.final (step setting py) r events).stored) := by
  have hraw := (build_iff config₀ _ hinit).2.1
  have hfirst : TakenFrom r.worker config₀ r.worker.lastModified :=
    ⟨⟨_, hraw.symm ▸ hinit, answersAs_iff.mpr fun _ => rfl⟩, hraw ▸ Dict.Same.rfl, rfl⟩
  rw [Run.along_append] at hrefreshable
  obtain ⟨hbefore, htask, -⟩ := hrefreshable
  obtain ⟨config, time, htaken, hfrom⟩ := taken_final hfirst events hbefore
  have hstep := doWork_taken py htaken htask
  rw [Run.final_append]
  split at hstep
  · next hreloads =>
    refine ⟨_, _, hstep.answersAsBuilt, Or.inr ⟨events, t, [], rfl, hreloads, rfl, rfl⟩, ?_,
      fun _ => rfl⟩
    have hupdated := t.now_le_updated
    omega
  · next hkept =>
    refine ⟨config, time, hstep.answersAsBuilt, hfrom.imp_right fun hread => hread.append _, ?_,
      fun hwalk => absurd (Or.inr hwalk) hkept⟩
    have hage : ¬ t.now - _ > setting.profilesReloadDelay := fun hage => hkept (Or.inl hage)
    rw [htaken.lastModified] at hage
    omega

/-- A worker that reads its profiles every minute, and loads every module. -/
def minuteSetting : WorkerSetting where
  config := ⟨Dict.empty, false⟩
  profilesReloadDelay := 60
  setOrder := id
  setOrder_perm := fun _ => List.Perm.refl _

def everyModule : PySnmp Unit where
  loadModules := fun builder _ => (builder, true)
  reread := fun _ vb => vb
  resolveObject := fun _ _ _ => .error .smiError
  nodeLocation := fun _ _ => .error .smiError
  resolveIdentity := fun _ _ => .error .smiError
  resolveLocated := fun _ _ _ => .error .smiError

/-- A worker that began without profiles. -/
def startedWorker : WorkerRun Unit := ⟨⟨⟨Dict.empty, Dict.empty⟩, 0, ⟨(), [], []⟩⟩, Dict.empty⟩

/-- A profile is stored after the worker began. -/
def routerStored : WorkerEvent := .store ProfileCollection.routerConfig

/-- A poll of it. -/
def routerPoll : WorkerTask where
  now := 100
  updated := 101
  now_le_updated := by decide
  isWalk := false
  profiles := ["router"]
  authenticate := .ok ()
  bulkAnswers := []
  getAnswers := []

theorem tasks_fresh_router : ∃ config time,
    AnswersAsBuilt
      (Run.final (step minuteSetting everyModule) startedWorker
        ([routerStored] ++ [.task routerPoll])).worker.profilesCollection config ∧
    (config = Dict.empty ∧ time = startedWorker.worker.lastModified ∨
      ReadIn minuteSetting everyModule startedWorker
        ([routerStored] ++ [.task routerPoll]) config time) ∧
    routerPoll.now ≤ time + max minuteSetting.profilesReloadDelay 0 ∧
    (routerPoll.isWalk = true → config =
      (Run.final (step minuteSetting everyModule) startedWorker [routerStored]).stored) := by
  refine tasks_fresh minuteSetting everyModule startedWorker Dict.empty rfl [routerStored]
    routerPoll ⟨trivial, fun _ => Or.inr ⟨?_, fun _ _ => rfl⟩, trivial⟩
  refine (allProcessable_iff ProfileCollection.routerConfig).mpr ?_
  intro profile hmem
  obtain rfl : profile = ("router", ⟨some 60, some [[.str "IF-MIB"]], none, none⟩) :=
    List.mem_singleton.mp hmem
  exact (Profile.process_returns_iff _ _).mpr
    ⟨[[.str "IF-MIB"]], rfl, by simp [Varbind.Divisible]⟩

end WorkerRun

end Sc4snmp
